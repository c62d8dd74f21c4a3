import ParticleAutomaton.Proofs.ActivityRefresh
import ParticleAutomaton.Proofs.DeclaredRules

namespace ParticleAutomaton.Board

variable {R γ : Type} [RateScalar R]

/-- The activity of each cell is that of its particle under the rules, and no place off the grid has
any. -/
structure Synced (b : Board R γ) : Prop extends WellFormed b where
  inside : ∀ {p cell name}, b.grid.get? p = some cell →
    b.registry.name? cell.particle = some name →
      b.registry.rules.activity name = .ok (b.activity.rate p)
  outside : ∀ {p}, b.grid.contains p = false → b.activity.rate p = 0

/-- The rate that is remembered is not below zero, so it is the one that the rules say. -/
theorem activity_of_fresh {r : Registry R} (h : r.Sound) {id : ParticleId} {name : String}
    (hn : r.name? id = some name) {x : R}
    (hx : ∃ rate, r.Rates id rate ∧ x = Scalar.atLeast 0 rate) :
    r.rules.activity name = .ok x := by
  obtain ⟨rate, hr, rfl⟩ := hx
  have hactivity := hr.activity h hn
  rw [(Rulebook.isRate_activity hactivity).atLeast_zero]
  exact hactivity

theorem Resettled.synced {b c : Board R γ} {ps : List Point} (h : b.Resettled ps c)
    (hb : b.Alike b) (hc : c.Alike c) (hw : c.WellFormed)
    (hg : ∀ p, c.grid.contains p = b.grid.contains p) (hs : b.Synced) : c.Synced := by
  refine ⟨hw, fun {p cell name} hcell hn => ?_, fun {p} hp => ?_⟩
  · by_cases hp : p ∈ ps
    · exact activity_of_fresh hc.sound hn (h.fresh hp hcell)
    · obtain ⟨old, hold⟩ := Grid.get?_of_contains ((hg p).symm.trans (Grid.contains_of_get? hcell))
      obtain ⟨cell', hcell', hparticle⟩ := h.particle hp hold
      cases hcell.symm.trans hcell'
      obtain ⟨name', hname⟩ := hb.named hold
      have hkept := h.retains.name? hname
      rw [← hparticle, hn] at hkept
      cases hkept
      rw [h.retains.rules, h.rate (Or.inl hp)]
      exact hs.inside hold hname
  · rw [h.rate (Or.inr hp)]
    exact hs.outside ((hg p).symm.trans hp)

theorem Synced.flush {b : Board R γ} (h : b.Synced) : b.flush.2.Synced := by
  refine ⟨⟨h.covered, h.activity, h.maxNameLen⟩, fun {p cell name} hcell hn => ?_, h.outside⟩
  exact h.inside hcell (Registry.name?_flush_eq_some_iff.mp hn).1

theorem synced_new {config : BoardConfig} {rules : Rulebook R} {random : γ} {b : Board R γ}
    (h : new config rules random = .ok b) : b.Synced := by
  have hb := alike_new h
  have hw := wellFormed_new h
  obtain ⟨-, -, activity, hcovering, h⟩ := new_eq_ok.mp h
  obtain ⟨hcovers, hzero⟩ := ActivityTree.covers_covering hcovering
  have hstill : (still config rules random activity).Covered := fun p hp => hcovers.place? hp
  have hnew := refreshed_of_refreshRates hstill h
  refine ⟨hw, fun {p cell name} hcell hn => ?_, fun {p} hp => ?_⟩
  · have hcell' : (still config rules random activity).grid.get? p = some cell :=
      hnew.grid ▸ hcell
    have hp := Grid.mem_points.mpr (Grid.contains_of_get? hcell')
    exact activity_of_fresh hb.sound hn (hnew.fresh hp hcell')
  · rw [hnew.rate (Or.inr (hnew.grid ▸ hp))]
    exact hzero p

variable [Generator R γ]

theorem Moves.synced {b c : Board R γ} (hm : b.Moves c) (hb : b.Alike b) (hs : b.Synced) :
    c.Synced := by
  rcases hm.resettled hb hs.covered with rfl | ⟨ps, hps⟩
  · exact hs.flush
  · exact hps.synced hb (hm.alike hb) (hm.wellFormed hb hs.toWellFormed) hm.leadsTo.ages.contains hs

variable [MessageReader R]

theorem Reachable.synced {b : Board R γ} (h : b.Reachable) : b.Synced :=
  h.invariant synced_new fun ha hm => hm.synced ha

/-- The activity of each cell is the one that the registry tells for its particle, there is none off
the grid, and so a cell that is drawn by its activity is on the grid. -/
theorem activity_in_sync {b : Board R γ} (h : b.Reachable) :
    (∀ p cell, b.grid.get? p = some cell →
      ∃ registry, b.registry.activityRate cell.particle = .ok (b.activity.rate p, registry)) ∧
    (∀ p, b.grid.contains p = false → b.activity.rate p = 0) ∧
    (∀ (random random' : γ) p, b.activity.sample random = (some p, random') →
      b.grid.contains p = true) := by
  have hs := h.synced
  refine ⟨fun p cell hcell => ?_, fun p hp => hs.outside hp, fun random random' p hp => ?_⟩
  · obtain ⟨name, hn⟩ := h.alike.named hcell
    have hagree := Registry.activityRate_agree h.alike.sound hn
    rw [hs.inside hcell hn] at hagree
    obtain ⟨⟨rate, registry⟩, hr, rfl, -, -⟩ := hagree.eq_ok
    exact ⟨registry, hr⟩
  · by_contra hout
    have hz := hs.outside (by simpa using hout)
    refine ActivityTree.rate_of_sample hp ?_
    rw [hz]
    exact RateScalar.zero_le Scalar.isRate_zero

/-- A board of two cells that a rule makes active, in a square of four. -/
theorem activity_in_sync_of_pair :
    ∃ (b : Board Float RandomSource) (cell : Cell), b.Reachable ∧
      b.grid.get? ⟨0, 0⟩ = some cell ∧
      (∃ registry, b.registry.activityRate cell.particle =
        .ok (b.activity.rate ⟨0, 0⟩, registry)) ∧
      0 < b.activity.rate ⟨0, 0⟩ ∧ b.activity.rate ⟨0, 1⟩ = 0 := by
  let records : RuleRecords Float :=
    ⟨[], [{ dir := some "n", source := some "_", target := some "_" }], []⟩
  have hread : ((Rulebook.ofRecords? .square4 records).toOption.any fun rules =>
      (rules.activity "_").toOption.any fun rate => decide (0 < rate)) = true := by
    decide +kernel
  obtain ⟨rules, hrules, hactive⟩ := any_toOption.mp hread
  obtain ⟨rate, hrate, hpos⟩ := any_toOption.mp hactive
  let config : BoardConfig := { width := 2, height := 1 }
  have hv : config.validate = .ok () := rfl
  obtain ⟨b, hb⟩ := new_ok (RandomSource.ofMix 0) hv (Rulebook.topology_of_ofRecords hrules)
    (Rulebook.total_of_ofRecords hrules)
  have hr : b.Reachable := ⟨_, _, _, b, hb, .refl⟩
  obtain ⟨filler, hg⟩ := grid_new hb
  have hin : b.grid.contains ⟨0, 0⟩ = true := by
    rw [hg]
    rfl
  have hout : b.grid.contains ⟨0, 1⟩ = false := by
    rw [hg]
    rfl
  obtain ⟨particle, hcell, hn⟩ := cell_new hb hin
  obtain ⟨hinside, houtside, -⟩ := activity_in_sync hr
  have hname : Text.truncate 256 "_" = "_" := by decide
  have hrules : b.registry.rules = rules := (keeps_new hb).rules
  have hsync := hr.synced.inside hcell (hn.trans (congrArg some hname))
  rw [hrules, hrate] at hsync
  rw [Except.ok.inj hsync] at hpos
  exact ⟨b, _, hr, hcell, hinside _ _ hcell, of_decide_eq_true hpos, houtside _ hout⟩

end ParticleAutomaton.Board
