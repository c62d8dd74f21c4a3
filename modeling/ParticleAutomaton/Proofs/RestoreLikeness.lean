import ParticleAutomaton.Proofs.BoardLikeness
import ParticleAutomaton.Proofs.NameCounts

namespace ParticleAutomaton

namespace Board

variable {R γ : Type} [Scalar R]

/-- If a registry counts what the left cells of pairs hold, it can come to count the right ones. -/
theorem recountPairs {pairs : List (Cell × Cell)} {r : Registry R} (hr : r.Sound)
    (hn : ∀ pair ∈ pairs, ∃ name, r.name? pair.2.particle = some name) (k : ParticleId → Nat)
    (hheld : ∀ id, r.held id = k id + (pairs.map (·.1.particle)).count id) :
    ∃ s, pairs.foldlM (fun r (pair : Cell × Cell) => r.exchange pair.1.particle pair.2.particle) r =
        .ok s ∧ s.Sound ∧ r.Keeps s ∧
      ∀ id, s.held id = k id + (pairs.map (·.2.particle)).count id := by
  induction pairs generalizing r k with
  | nil => exact ⟨r, rfl, hr, .refl r, hheld⟩
  | cons pair pairs ih =>
    obtain ⟨name, hname⟩ := hn pair (List.mem_cons_self ..)
    have hpos : 0 < r.held pair.1.particle := by
      rw [hheld, List.map_cons, List.count_cons_self]
      omega
    obtain ⟨s, hs, hsound, hkeeps, hs'⟩ := hr.exchange hname hpos
    have hnamed : ∀ pair ∈ pairs, ∃ name, s.name? pair.2.particle = some name := by
      intro pair' hp
      obtain ⟨name', hname'⟩ := hn pair' (List.mem_cons_of_mem _ hp)
      exact ⟨name', hr.name?_of_keeps hkeeps hname'⟩
    obtain ⟨t, ht, htsound, htkeeps, ht'⟩ := ih hsound hnamed
      (fun id => k id + if id = pair.2.particle then 1 else 0) fun id => by
        have hex := hs' id
        rw [hheld, List.map_cons, List.count_cons] at hex
        simp only [beq_iff_eq, eq_comm (a := pair.1.particle)] at hex
        omega
    refine ⟨t, by rw [foldlM_cons, hs]; exact ht, htsound, hkeeps.trans htkeeps, fun id => ?_⟩
    rw [ht', List.map_cons, List.count_cons]
    simp only [beq_iff_eq, eq_comm (a := pair.2.particle)]
    omega

/-- The cells of two grids of one size can be counted anew. -/
theorem recount_ok {old new : Grid} {r : Registry R} (hr : r.Sound) (hc : Scene.Counted (old, r))
    (hn : Scene.Named (new, r)) (hw : new.width = old.width)
    (hh : new.height = old.height) :
    ∃ s, recount old new r = .ok s ∧ s.Sound ∧ r.Keeps s ∧ Scene.Counted (new, s) := by
  have hlen : old.cells.toList.length = new.cells.toList.length := by
    simp [old.size_cells, new.size_cells, hw, hh]
  have hfst : (old.cells.toList.zip new.cells.toList).map (·.1.particle) = old.particles := by
    rw [← Function.comp_def, ← List.map_map, List.map_fst_zip (Nat.le_of_eq hlen)]
    rfl
  have hsnd : (old.cells.toList.zip new.cells.toList).map (·.2.particle) = new.particles := by
    rw [← Function.comp_def, ← List.map_map, List.map_snd_zip (Nat.le_of_eq hlen.symm)]
    rfl
  have hnamed : ∀ pair ∈ old.cells.toList.zip new.cells.toList,
      ∃ name, r.name? pair.2.particle = some name :=
    fun pair hp => hn _ (hsnd ▸ List.mem_map_of_mem hp)
  obtain ⟨s, hs, hsound, hkeeps, hheld⟩ := recountPairs hr hnamed (fun _ => 0) fun id => by
    rw [hfst, Nat.zero_add]
    exact hc id
  exact ⟨s, hs, hsound, hkeeps, fun id => by rw [hheld, hsnd, Nat.zero_add]⟩

/-- A snapshot names its particles, so it is staged alike. -/
theorem stageEntries {entries : List (Point × CellSnapshot)} {x y : Scene R} (h : x.Alike y) :
    let place := fun (x : Scene R) (entry : Point × CellSnapshot) =>
      let (particle, r) := x.2.intern entry.2.particle
      ((x.1.modify entry.1 fun c => restoredCell c entry.2 particle, r) : Scene R)
    Scene.Alike (entries.foldl place x) (entries.foldl place y) ∧
      x.2.Extends (entries.foldl place x).2 ∧ y.2.Extends (entries.foldl place y).2 := by
  intro place
  induction entries generalizing x y with
  | nil => exact ⟨h, .refl _, .refl _⟩
  | cons entry entries ih =>
    obtain ⟨hknown, hn⟩ := h.intern entry.2.particle
    have hcells : ∀ c d, (x.2.intern entry.2.particle).2.CellsAlike
        (y.2.intern entry.2.particle).2 c d →
        (x.2.intern entry.2.particle).2.CellsAlike (y.2.intern entry.2.particle).2
          (restoredCell c entry.2 (x.2.intern entry.2.particle).1)
          (restoredCell d entry.2 (y.2.intern entry.2.particle).1) := by
      intro c d hcd
      have heq := hcd.particle.eq_iff hn hknown.left hknown.right
      refine ⟨hn, ?_, rfl⟩
      unfold restoredCell
      simp only [ne_eq, heq, hcd.writes]
    obtain ⟨ha, hx, hy⟩ := ih (hknown.modify entry.1 hcells)
    exact ⟨ha, (h.left.intern entry.2.particle).2.1.trans hx,
      (h.right.intern entry.2.particle).2.1.trans hy⟩

theorem alike_stage {b c : Board R γ} (h : b.Alike c) (cells : List CellSnapshot) :
    Scene.Alike (b.stage cells) (c.stage cells) ∧ b.registry.Extends (b.stage cells).2 ∧
      c.registry.Extends (c.stage cells).2 := by
  have hpoints : c.grid.points = b.grid.points := h.twins.points
  unfold stage
  rw [hpoints]
  exact stageEntries h.twins.toAlike

namespace Alike

variable {b c : Board R γ} (h : b.Alike c)

include h

theorem restore (s : Snapshot) : Agree Same (b.restore s) (c.restore s) := by
  obtain ⟨ha, hx, hy⟩ := alike_stage h s.cells
  have hwidth : c.width = b.width := h.twins.width
  have hheight : c.height = b.height := h.twins.height
  have htopology : c.topology = b.topology := congrArg BoardConfig.topology h.config
  have hgap : (c.stage s.cells).1.gap? = (b.stage s.cells).1.gap? := ha.sameBonds.gap?
  unfold Board.restore
  simp only [hwidth, hheight, htopology, hgap]
  split
  next => exact .ok ⟨rfl, h⟩
  next =>
    split
    next => exact .ok ⟨rfl, h⟩
    next =>
      split
      next => exact .ok ⟨rfl, h.learn ⟨ha.left, ha.right, hx, hy⟩⟩
      next =>
        obtain ⟨r, hr, hrs, kr, cr⟩ := recount_ok ha.left (h.twins.leftCounted.extends hx)
          ha.named_left (ages_stage b s.cells).width (ages_stage b s.cells).height
        obtain ⟨t, ht, hts, kt, ct⟩ := recount_ok ha.right (h.twins.rightCounted.extends hy)
          ha.named_right (ages_stage c s.cells).width (ages_stage c s.cells).height
        have hr : recount b.grid (b.stage s.cells).1 (b.stage s.cells).2 = .ok r := hr
        have ht : recount c.grid (c.stage s.cells).1 (c.stage s.cells).2 = .ok t := ht
        have hpoints : (c.stage s.cells).1.points = (b.stage s.cells).1.points := ha.points
        have hstaged : Alike { b with grid := (b.stage s.cells).1, registry := r }
            { c with grid := (c.stage s.cells).1, registry := t } :=
          ⟨⟨ha.learn hrs hts kr kt, cr, ct⟩, h.config, h.activity, h.remotes, h.random, h.journal⟩
        rw [hr, ht, ok_bind, ok_bind, hpoints]
        exact (hstaged.refreshRates _).bind fun _ _ hbc => .ok ⟨rfl, hbc.drawAll _⟩

end Alike

end Board

end ParticleAutomaton
