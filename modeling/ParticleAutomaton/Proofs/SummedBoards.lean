import Mathlib
import ParticleAutomaton.Proofs.ActivitySums
import ParticleAutomaton.Proofs.ActivitySync

namespace ParticleAutomaton

namespace ActivityTree

variable {R : Type} [Scalar R]

/-- Rates have been set, one after the other. -/
def Retunes : ActivityTree R → ActivityTree R → Prop :=
  Relation.ReflTransGen fun t u => ∃ p rate, u = (t.update p rate).2

theorem Retunes.refl (t : ActivityTree R) : t.Retunes t := Relation.ReflTransGen.refl

theorem Retunes.trans {t u v : ActivityTree R} (h : t.Retunes u) (k : u.Retunes v) : t.Retunes v :=
  Relation.ReflTransGen.trans h k

theorem retunes_update (t : ActivityTree R) (p : Point) (rate : R) :
    t.Retunes (t.update p rate).2 := Relation.ReflTransGen.single ⟨p, rate, rfl⟩

theorem Retunes.summed {t u : ActivityTree ℝ} (h : t.Retunes u) (ht : t.root.Summed) :
    u.root.Summed := by
  induction h with
  | refl => exact ht
  | tail _ hstep ih =>
    obtain ⟨p, rate, rfl⟩ := hstep
    exact summed_update ih p rate

end ActivityTree

namespace Board

variable {R γ : Type} [Scalar R]

theorem retunes_of_refreshRate {b c : Board R γ} {p : Point} (h : b.refreshRate p = .ok c) :
    b.activity.Retunes c.activity := by
  unfold refreshRate at h
  split at h
  next =>
    cases h
    exact .refl _
  next =>
    obtain ⟨⟨rate, registry⟩, -, h⟩ := bind_eq_ok.mp h
    cases h
    exact ActivityTree.retunes_update b.activity p rate

theorem retunes_of_refreshRates {b c : Board R γ} {ps : List Point}
    (h : b.refreshRates ps = .ok c) : b.activity.Retunes c.activity :=
  foldlM_relates (r := fun b c : Board R γ => b.activity.Retunes c.activity)
    (fun b => .refl b.activity) (fun h k => h.trans k) (fun _ _ _ _ => retunes_of_refreshRate) h

theorem retunes_of_write {b c : Board R γ} {p : Point} {particle : ParticleId}
    {touched : List Point} (h : b.write p particle = .ok (touched, c)) :
    b.activity.Retunes c.activity := by
  cases hcell : b.grid.get? p with
  | none =>
    rw [write_of_none hcell] at h
    cases h
    exact .refl _
  | some cell =>
    rw [write_of_some hcell] at h
    obtain ⟨registry, -, h⟩ := bind_eq_ok.mp h
    obtain ⟨d, hd, h⟩ := bind_eq_ok.mp h
    have hretunes := retunes_of_refreshRate hd
    cases h
    exact hretunes

theorem retunes_of_set {b c : Board R γ} {p : Point} {name : String} {done : Bool}
    (h : b.set p name = .ok (done, c)) : b.activity.Retunes c.activity := by
  rcases set_cases h with rfl | ⟨touched, d, hd, rfl⟩
  · exact .refl _
  · have hretunes := retunes_of_write hd
    exact hretunes

theorem retunes_of_applyReply {b c : Board R γ} {m : EvolveReply R} (h : b.applyReply m = .ok c) :
    b.activity.Retunes c.activity := by
  rcases applyReply_cases h with rfl | rfl | ⟨touched, d, hd, rfl⟩
  · exact .refl _
  · exact .refl _
  · have hretunes := retunes_of_write hd
    exact hretunes

theorem retunes_of_restore {b c : Board R γ} {s : Snapshot} {r : Except SnapshotError Unit}
    (h : b.restore s = .ok (r, c)) : b.activity.Retunes c.activity := by
  rcases restore_cases h with rfl | rfl | ⟨-, registry, d, -, hd, rfl⟩
  · exact .refl _
  · exact .refl _
  · have hretunes := retunes_of_refreshRates hd
    exact hretunes

theorem retunes_of_commit {b c : Board R γ} {e : UpdateEvent R} (h : b.commit e = .ok c) :
    b.activity.Retunes c.activity := by
  obtain ⟨touched, grid, registry, d, journal, -, hd, rfl, -⟩ := commit_cases h
  have hretunes := retunes_of_refreshRates hd
  exact hretunes

variable [Generator R γ]

theorem Effect.retunes {b c : Board R γ} {remote : Bool} {o : StepOutcome}
    (h : Effect b remote o c) : b.activity.Retunes c.activity := by
  cases h with
  | quiet ha hr h =>
    obtain ⟨registry, random, -, rfl⟩ := h
    exact .refl _
  | request ho h =>
    obtain ⟨registry, random, p, cell, d, remote, -, hp, -, rfl⟩ := h
    obtain ⟨registry', q, -, -, -, -, hr⟩ :=
      requestRemote_eq (b := { b with registry, random }) hp d remote
    rw [hr]
    exact .refl _
  | change ho e e' hp hr hb h =>
    obtain ⟨registry, random, -, h⟩ := h
    exact retunes_of_commit (b := { b with registry, random }) h

/-- A move does to activities what setting rates does to them. -/
theorem Moves.retunes {b c : Board R γ} (h : b.Moves c) : b.activity.Retunes c.activity := by
  cases h with
  | set h => exact retunes_of_set h
  | addBond bond =>
    rw [addBond_eq]
    split <;> exact .refl _
  | removeBonds p => exact .refl _
  | connect p cell =>
    unfold Board.connect
    split <;> exact .refl _
  | draw random => exact .refl _
  | step h => exact (effect_of_step h).retunes
  | @handle m c h =>
    cases m with
    | evolve m =>
      obtain ⟨⟨state, energy, d⟩, hd, h⟩ := bind_eq_ok.mp h
      obtain ⟨o, he⟩ := effect_of_evolveTarget hd
      have hretunes := he.retunes
      cases h
      exact hretunes
    | reply m => exact retunes_of_applyReply h
  | restore h => exact retunes_of_restore h
  | flush => exact .refl _

theorem Reachable.summed {γ : Type} [Generator ℝ γ] [MessageReader ℝ] {b : Board ℝ γ}
    (h : b.Reachable) : b.activity.root.Summed :=
  h.invariant summed_new fun _ hm hb => hm.retunes.summed hb

end Board

end ParticleAutomaton
