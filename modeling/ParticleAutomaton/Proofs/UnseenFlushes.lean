import ParticleAutomaton.Proofs.Occupancy

namespace ParticleAutomaton.Board

/-- Flushes between operations change nothing of what the operations tell or leave to be seen. -/
theorem flushes_unseen {R γ : Type} [Scalar R] [Generator R γ] [MessageReader R] {b : Board R γ}
    (h : b.Reachable) {ops : List (Operation R)} (hp : ∀ op ∈ ops, op.isPaint = false) :
    Operation.watch b ops = Operation.watch b (ops.filter fun op => !op.isFlush) :=
  h.alike.watch hp

/-- A particle that no cell holds any more is let go of, and another one of its name is made when
a cell is set to it. -/
theorem flushes_unseen_between_steps :
    ∃ (b c d : Board ℝ (ℕ → Set.Ico (0 : ℝ) 1)) (n : ℕ) (again : ParticleId), b.Reachable ∧
      b.particleName? ⟨0, 1⟩ = some "_" ∧
      Operation.runAll b [.set ⟨0, 0⟩ "a", .step, .flush] =
        .ok ([.flag true, .outcome .accepted, .number n], c) ∧
      c.registry.find? "_" = none ∧
      Operation.runAll c [.set ⟨0, 1⟩ "_", .step] = .ok ([.flag true, .outcome .accepted], d) ∧
      d.registry.find? "_" = some again ∧
      Operation.watch b [.set ⟨0, 0⟩ "a", .step, .flush, .set ⟨0, 1⟩ "_", .step] =
        Operation.watch b [.set ⟨0, 0⟩ "a", .step, .set ⟨0, 1⟩ "_", .step] := by
  obtain ⟨b, a, blank, hb, hshown, hrun, ha, hnorth, -, hblank, hunheld⟩ := exists_spread
  have hshort : Text.truncate 256 "_" = "_" := by decide
  have hflush : Operation.run a .flush = .ok (.number a.flush.1, a.flush.2) := rfl
  have hc : a.flush.2.Column := ha.run hflush
  have hsame := ha.ready.alike.flush
  have hgone : a.flush.2.registry.find? "_" = none := by
    cases hfound : a.flush.2.registry.find? "_" with
    | none => rfl
    | some id =>
      have hkept := (hc.find?_iff hshort).mp hfound
      obtain ⟨hname, hheld⟩ := Registry.name?_flush_eq_some_iff.mp hkept
      rw [ha.ready.alike.sound.name_inj hname hblank, hunheld] at hheld
      exact absurd hheld (Nat.lt_irrefl 0)
  obtain ⟨c, hset, hc', hsouth', hothers⟩ := hc.set (Or.inr rfl) hshort
  have hnorth' : c.particleName? ⟨0, 0⟩ = some "a" := by
    rw [hothers _ (by decide), hsame.particleName?, hnorth]
  obtain ⟨d, again, hstep, hd, -, -, hagain⟩ := hc'.spreads isUnit_draws hnorth' hsouth'
  have hmore := Operation.runAll_append (Operation.runAll_singleton hset)
    (Operation.runAll_singleton hstep)
  refine ⟨b, a.flush.2, d, _, again, hb.reachable, hshown,
    Operation.runAll_append hrun (Operation.runAll_singleton hflush), hgone, hmore,
    (hd.find?_iff hshort).mpr hagain, ?_⟩
  exact flushes_unseen hb.reachable (by simp [Operation.isPaint])

end ParticleAutomaton.Board
