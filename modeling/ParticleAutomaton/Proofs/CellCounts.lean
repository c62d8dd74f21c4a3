import Mathlib
import ParticleAutomaton.Proofs.ActivityRefresh
import ParticleAutomaton.Proofs.Views

namespace ParticleAutomaton

namespace Scene

variable {R : Type}

theorem sum_tally (r : Registry R) :
    ((tally r).map Prod.snd).sum = (r.particles.toList.map fun e => e.2.count).sum := by
  unfold tally
  generalize r.particles.toList = entries
  induction entries with
  | nil => rfl
  | cons e entries ih =>
    rw [List.filterMap_cons, List.map_cons, List.sum_cons]
    by_cases hz : e.2.count = 0
    · simp only [hz, if_true, Nat.zero_add]
      exact ih
    · simp only [hz, if_false, List.map_cons, List.sum_cons]
      exact congrArg _ ih

/-- Every cell is counted for exactly one particle of the registry. -/
theorem sum_counts {x : Scene R} (hc : x.Counted) (hn : x.Named) :
    (x.2.counts.map Prod.snd).sum = x.1.width * x.1.height := by
  have hlive : ∀ id ∈ (x.1.particles : Multiset ParticleId),
      id ∈ (x.2.particles.toList.map Prod.fst).toFinset := by
    intro id hid
    obtain ⟨name, hname⟩ := hn id (Multiset.mem_coe.mp hid)
    obtain ⟨p, hp, -⟩ := Registry.get?_of_name? hname
    exact List.mem_toFinset.mpr (List.mem_map.mpr ⟨(id, p), Arena.mem_toList.mpr hp, rfl⟩)
  have hnodup : (x.2.particles.toList.map Prod.fst).Nodup := by
    refine List.Nodup.of_map ParticleId.slot ?_
    rw [List.map_map]
    exact x.2.particles.nodup_slots_toList
  have hcount : ∀ e ∈ x.2.particles.toList, e.2.count = x.1.particles.count e.1 := by
    rintro ⟨id, p⟩ he
    have hp : x.2.get? id = some p := Arena.mem_toList.mp he
    rw [← hc id, Registry.held, hp]
    rfl
  calc (x.2.counts.map Prod.snd).sum
      = ((tally x.2).map Prod.snd).sum := ((counts_perm x.2).map Prod.snd).sum_eq
    _ = (x.2.particles.toList.map fun e => x.1.particles.count e.1).sum := by
        rw [sum_tally, List.map_congr_left hcount]
    _ = ∑ id ∈ (x.2.particles.toList.map Prod.fst).toFinset, x.1.particles.count id := by
        rw [List.sum_toFinset _ hnodup, List.map_map]
        rfl
    _ = x.1.particles.length := by
        simpa only [Multiset.coe_count, Multiset.coe_card] using Multiset.sum_count_eq_card hlive
    _ = x.1.width * x.1.height := by simp [Grid.particles, x.1.size_cells]

end Scene

namespace Board

variable {R γ : Type}

/-- The number of cells that show a name. -/
def cellsNamed (b : Board R γ) (name : String) : Nat :=
  b.grid.points.countP fun p => b.particleName? p == some name

theorem names_scene (b : Board R γ) :
    b.scene.names = b.grid.points.filterMap b.particleName? := by
  simp only [Scene.names, Grid.particles, scene, Grid.cells_toList, List.map_filterMap,
    Option.map_map]
  rfl

theorem count_names (b : Board R γ) (name : String) :
    b.scene.names.count name = b.cellsNamed name := by
  rw [names_scene, cellsNamed, List.count, List.countP_filterMap]
  refine List.countP_congr fun p _ => ?_
  cases b.particleName? p <;> simp

/-- The count of a name is the number of cells that show it. -/
theorem Alike.count_cellsNamed [Scalar R] {b : Board R γ} (h : b.Alike b) (name : String) :
    b.count name = b.cellsNamed (Text.truncate b.registry.maxNameLen name) := by
  rw [← count_names]
  exact Scene.count_eq h.sound h.twins.leftCounted h.twins.named_left name

/-- A flush keeps the particles that cells hold and lets go of all others. -/
theorem get?_flush {b : Board R γ} (hc : b.scene.Counted) (id : ParticleId) :
    b.flush.2.registry.get? id =
      if id ∈ b.grid.particles then (b.registry.get? id).map Particle.flush else none := by
  have hheld : b.registry.held id = b.grid.particles.count id := hc id
  have hflush : b.flush.2.registry.get? id =
      (b.registry.get? id).bind fun p => if p.count = 0 then none else some p.flush :=
    b.registry.get?_flush id
  rw [hflush]
  unfold Registry.held at hheld
  cases hp : b.registry.get? id with
  | none => simp
  | some p =>
    rw [hp, Option.map_some, Option.getD_some] at hheld
    rw [Option.bind_some, Option.map_some, hheld]
    by_cases hm : id ∈ b.grid.particles
    · simp [hm, List.count_eq_zero]
    · simp [hm, List.count_eq_zero]

theorem flush_fst {b : Board R γ} (hc : b.scene.Counted) :
    b.flush.1 = b.registry.particles.toList.countP fun e => e.1 ∉ b.grid.particles := by
  have hgone : b.flush.1 = (b.registry.particles.toList.filter fun e => e.2.count = 0).length := rfl
  rw [hgone, ← List.countP_eq_length_filter]
  refine List.countP_congr fun ⟨id, p⟩ he => ?_
  have hp : b.registry.get? id = some p := Arena.mem_toList.mp he
  have hheld : b.registry.held id = b.grid.particles.count id := hc id
  rw [Registry.held, hp, Option.map_some, Option.getD_some] at hheld
  simp [hheld, List.count_eq_zero]

variable [Scalar R]

/-- The palette is that of the board before it is painted, so painting goes cell by cell. -/
theorem Alike.paint {b : Board R γ} (h : b.Alike b) (image : Image) :
    Agree Same (b.paint image) (b.paint image) := by
  unfold Board.paint
  refine Agree.foldlM (r := Same) ⟨rfl, h⟩ fun p _ s t hst => ?_
  obtain ⟨hn, hst⟩ := hst
  simp only
  split
  next name _ => exact (hst.set p name).map fun _ _ hset => ⟨congrArg (· + 1) hn, hset.2⟩
  next => exact .ok ⟨hn, hst⟩

variable [Generator R γ] [MessageReader R]

/-- No operation takes a cell from a particle that none holds. -/
theorem Alike.spares_of_run {b : Board R γ} (h : b.Alike b) {op : Operation R} {f : Fault}
    (hf : op.run b = .error f) : f.SparesCounts := by
  cases hp : op.isPaint with
  | true =>
    cases op with
    | paint image =>
      have hrun := (h.paint image).map (s := fun _ _ : Answer × Board R γ => True)
        (f := fun s => (.number s.1, s.2)) (g := fun s => (.number s.1, s.2)) fun _ _ _ => trivial
      exact hrun.spares hf
    | _ => exact nomatch hp
  | false =>
    cases hflush : op.isFlush with
    | true =>
      cases op with
      | flush => exact nomatch hf
      | _ => exact nomatch hflush
    | false => exact (h.run hp hflush).spares hf

end Board

end ParticleAutomaton
