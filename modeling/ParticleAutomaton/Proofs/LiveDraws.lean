import Mathlib
import ParticleAutomaton.Proofs.FaultlessRuns
import ParticleAutomaton.Proofs.GaplessSamplers
import ParticleAutomaton.Proofs.RemoteBarrier
import ParticleAutomaton.Proofs.SummedBoards

namespace ParticleAutomaton

/-- A stream of numbers at least zero and below one gives its numbers one by one. -/
instance : Generator ℝ (ℕ → Set.Ico (0 : ℝ) 1) := ⟨fun draws => (draws 0, fun n => draws (n + 1))⟩

theorem isUnit_draws : Generator.IsUnit (ℕ → Set.Ico (0 : ℝ) 1) := fun draws => (draws 0).2

namespace QuadTree

variable {γ : Type} {k : Nat}

/-- Something is chosen whatever the draw, as long as one weight is not at or below zero. -/
theorem exists_choose {R : Type} [Scalar R] {draw : R} {place : Nat} {last : Option Nat}
    {ws : List R} (h : last.isSome = true ∨ ∃ w ∈ ws, ¬ w ≤ 0) :
    ∃ i, choose draw place last ws = some i := by
  induction ws generalizing draw place last with
  | nil =>
    rcases h with h | ⟨w, hw, -⟩
    · exact Option.isSome_iff_exists.mp h
    · cases hw
  | cons w ws ih =>
    unfold choose
    split
    next hle =>
      apply ih
      rcases h with h | ⟨v, hv, hpos⟩
      · exact Or.inl h
      · rcases List.mem_cons.mp hv with rfl | hv
        · exact absurd hle hpos
        · exact Or.inr ⟨v, hv, hpos⟩
    next =>
      split
      next => exact ⟨place, rfl⟩
      next =>
        apply ih
        exact Or.inl rfl

theorem Summed.rate_nonneg {t : QuadTree ℝ k} (h : t.Summed) (x y : Nat) : 0 ≤ t.rate x y := by
  induction t generalizing x y with
  | leaf rate => exact h
  | node sum nw ne sw se ihnw ihne ihsw ihse =>
    obtain ⟨-, hnw, hne, hsw, hse⟩ := h
    unfold rate
    simp only
    split
    · split
      · exact ihnw hnw ..
      · exact ihsw hsw ..
    · split
      · exact ihne hne ..
      · exact ihse hse ..

variable [Generator ℝ γ]

/-- Where the sums are exact, a tree with activity has a quadrant with activity, down to a place. -/
theorem Summed.exists_sample {t : QuadTree ℝ k} (h : t.Summed) (hpos : 0 < t.total) (g : γ) :
    ∃ x y g', t.sample g = (some (x, y), g') := by
  induction t generalizing g with
  | leaf rate => exact ⟨0, 0, g, rfl⟩
  | @node k sum nw ne sw se ihnw ihne ihsw ihse =>
    obtain ⟨hsum, hnw, hne, hsw, hse⟩ := h
    have hpos : 0 < sum := hpos
    have htotal : Scalar.sum [nw.total, ne.total, sw.total, se.total] = sum := by
      have hfold : Scalar.sum [nw.total, ne.total, sw.total, se.total] =
          (0 : ℝ) + nw.total + ne.total + sw.total + se.total := rfl
      rw [hfold, hsum, zero_add]
    have hactive : ∃ w ∈ [nw.total, ne.total, sw.total, se.total], ¬ w ≤ 0 := by
      by_contra hnone
      push Not at hnone
      have hnw := hnone nw.total (by simp)
      have hne := hnone ne.total (by simp)
      have hsw := hnone sw.total (by simp)
      have hse := hnone se.total (by simp)
      linarith
    have hchosen : ∃ i, choose ((Generator.next (R := ℝ) g).1 * sum) 0 none
        [nw.total, ne.total, sw.total, se.total] = some i := exists_choose (Or.inr hactive)
    obtain ⟨i, hi⟩ := hchosen
    obtain ⟨w, hw, hwpos⟩ := exists_of_choose hi
    have hwpos : 0 < w := not_le.mp hwpos
    have hlt : i < 4 := (List.getElem?_eq_some_iff.mp hw).1
    unfold sample
    simp only
    rw [htotal, if_neg (not_le.mpr hpos), hi]
    -- The chosen quadrant has activity, so a place is drawn in it.
    obtain rfl | rfl | rfl | rfl : i = 0 ∨ i = 1 ∨ i = 2 ∨ i = 3 := by omega
    · cases hw
      obtain ⟨x, y, g', hs⟩ := ihnw hnw hwpos (Generator.next (R := ℝ) g).2
      simp only [hs]
      exact ⟨_, _, _, rfl⟩
    · cases hw
      obtain ⟨x, y, g', hs⟩ := ihne hne hwpos (Generator.next (R := ℝ) g).2
      simp only [hs]
      exact ⟨_, _, _, rfl⟩
    · cases hw
      obtain ⟨x, y, g', hs⟩ := ihsw hsw hwpos (Generator.next (R := ℝ) g).2
      simp only [hs]
      exact ⟨_, _, _, rfl⟩
    · cases hw
      obtain ⟨x, y, g', hs⟩ := ihse hse hwpos (Generator.next (R := ℝ) g).2
      simp only [hs]
      exact ⟨_, _, _, rfl⟩

end QuadTree

namespace ActivityTree

variable {γ : Type} [Generator ℝ γ]

theorem rate_of_topRate {t : ActivityTree ℝ} (h : t.root.Summed) (htop : t.topRate ≤ 0)
    (p : Point) : t.rate p = 0 := by
  unfold rate
  cases t.place? p with
  | none => rfl
  | some place =>
    have hle : t.root.rate place.1 place.2 ≤ 0 := le_trans (h.rate_le ..) htop
    exact le_antisymm hle (h.rate_nonneg ..)

theorem exists_sample {t : ActivityTree ℝ} (h : t.root.Summed) (htop : 0 < t.topRate) (g : γ) :
    ∃ p g', t.sample g = (some p, g') := by
  obtain ⟨x, y, g', hs⟩ := h.exists_sample htop g
  unfold sample
  rw [if_neg (not_le.mpr htop), hs]
  exact ⟨_, _, rfl⟩

/-- No point is drawn exactly where there is no activity. -/
theorem sample_none_iff {t : ActivityTree ℝ} (h : t.root.Summed) (g : γ) :
    (t.sample g).1 = none ↔ ∀ p, t.rate p = 0 := by
  constructor
  · intro hnone
    by_cases htop : t.topRate ≤ 0
    · exact rate_of_topRate h htop
    · obtain ⟨p, g', hs⟩ := exists_sample h (not_le.mp htop) g
      rw [hs] at hnone
      exact nomatch hnone
  · intro hzero
    by_contra hsome
    obtain ⟨p, hp⟩ := Option.ne_none_iff_exists'.mp hsome
    have hdrawn : t.sample g = (some p, (t.sample g).2) := Prod.ext hp rfl
    exact rate_of_sample hdrawn (le_of_eq (hzero p))

end ActivityTree

namespace Board

variable {γ : Type}

theorem propose_outcome {R : Type} [Scalar R] [Generator R γ] {b c : Board R γ}
    {e : UpdateEvent R} {barrier delta : R} {o : StepOutcome}
    (h : b.propose e barrier = .ok (o, delta, c)) : o ≠ .idle ∧ o ≠ .noInteraction := by
  unfold propose at h
  obtain ⟨⟨bound, e'⟩, -, h⟩ := bind_eq_ok.mp h
  simp only at h
  split at h
  next =>
    cases h
    exact ⟨nofun, nofun⟩
  next =>
    split at h
    next =>
      obtain ⟨d, -, h⟩ := bind_eq_ok.mp h
      cases h
      exact ⟨nofun, nofun⟩
    next =>
      cases h
      exact ⟨nofun, nofun⟩

/-- An attempt comes to nothing between two cells only if no outcome is drawn for them. -/
theorem attemptAt_outcome {R : Type} [Scalar R] [Generator R γ] {b c : Board R γ} {p : Point}
    {source : ParticleId} {d : Direction} {o : StepOutcome}
    (hdrawn : ∀ target, b.grid.get? (p + b.topology.offset d) = some target →
      ∃ outcome registry random,
        b.registry.samplePair source d target.particle b.random = .ok (some outcome, registry, random))
    (h : b.attemptAt p source d = .ok (o, c)) : o ≠ .idle ∧ o ≠ .noInteraction := by
  unfold attemptAt at h
  simp only at h
  split at h
  next =>
    split at h
    next =>
      cases h
      exact ⟨nofun, nofun⟩
    next =>
      cases h
      exact ⟨nofun, nofun⟩
  next target ht =>
    obtain ⟨outcome, registry, random, hs⟩ := hdrawn target ht
    rw [hs, ok_bind] at h
    simp only at h
    split at h
    next =>
      cases h
      exact ⟨nofun, nofun⟩
    next =>
      obtain ⟨⟨result, delta, d⟩, hp, h⟩ := bind_eq_ok.mp h
      have hresult := propose_outcome hp
      cases h
      exact hresult

variable [Generator ℝ γ]

/-- A particle with activity has a direction with a rate, and one of these is drawn. -/
theorem exists_direction (hu : Generator.IsUnit γ) {b : Board ℝ γ} (h : b.Ready) {p : Point}
    {cell : Cell} (hc : b.grid.get? p = some cell) (hr : ¬ b.activity.rate p ≤ 0) (g : γ) :
    ∃ d registry g', b.registry.sampleDir cell.particle g = .ok (some d, registry, g') ∧
      b.registry.Extends registry ∧ registry.Sound ∧ d < b.topology.count := by
  obtain ⟨name, hn⟩ := h.alike.named hc
  obtain ⟨s, d, registry, g', hs, hdraw, hext, hsound, hsample, hdir⟩ :=
    h.alike.sound.sampleDir_ok h.total hn g
  obtain ⟨hgapless, hopen⟩ := SourceRules.gapless_of_ofName hs
  have hpos : 0 < s.rates.total := by
    by_contra hle
    have hweighs := (SourceRules.weighs_of_ofName hs).total
    have hzero : s.rates.total = 0 := le_antisymm (not_lt.mp hle) (isRate_real.mp hweighs)
    have hactivity := h.synced.inside hc hn
    rw [Rulebook.activity, hs] at hactivity
    have hrate : Scalar.atMost 1 (s.rates.total / Scalar.ofInt b.registry.rules.topology.count) =
        b.activity.rate p := Except.ok.inj hactivity
    rw [hzero, zero_div] at hrate
    have hmost : Scalar.atMost 1 (0 : ℝ) = 0 := if_pos zero_lt_one
    rw [hmost] at hrate
    exact hr (le_of_eq hrate.symm)
  have hrange : s.rates.drawRange = s.rates.total := by
    unfold WeightedSampler.drawRange
    rw [hopen]
    rfl
  obtain ⟨dir, g'', hdrawn⟩ := hgapless.sample hu hpos hrange g
  obtain ⟨rfl, rfl⟩ := Prod.mk.inj (hsample.symm.trans hdrawn)
  rw [h.topology] at hdir
  exact ⟨dir, registry, g', hdraw, hext, hsound, hdir dir rfl⟩

/-- For two neighbors one of the outcomes of their rules is drawn, or that nothing happens. -/
theorem exists_outcome (hu : Generator.IsUnit γ) {r : Registry ℝ} (h : r.Sound)
    (hp : r.rules.Probable) {source target : ParticleId} {sourceName targetName : String}
    (hs : r.name? source = some sourceName) (ht : r.name? target = some targetName) {d : Direction}
    (hd : d < r.rules.topology.count) (g : γ) :
    ∃ o r' g', r.samplePair source d target g = .ok (some o, r', g') := by
  obtain ⟨outcomes, o, r', g', houtcomes, hdraw, -, -, -, hsample⟩ := h.samplePair_ok hp hs ht hd g
  obtain ⟨hgapless, hone, hrange⟩ := Rulebook.pairOutcomes_gapless houtcomes
  obtain ⟨item, g'', hdrawn⟩ := hgapless.sample hu (lt_of_lt_of_le zero_lt_one hone) hrange g
  have hitem := congrArg Prod.fst (hsample.symm.trans hdrawn)
  cases o with
  | none => exact nomatch hitem
  | some o => exact ⟨o, r', g', hdraw⟩

/-- A drawn cell has a direction, and a neighbor in this direction an outcome. -/
theorem exists_draws (hu : Generator.IsUnit γ) {b : Board ℝ γ} (h : b.Ready) {p : Point}
    {random random₁ : γ} (hdrawn : b.activity.sample random = (some p, random₁)) :
    ∃ cell d registry random₂, b.grid.get? p = some cell ∧
      b.registry.sampleDir cell.particle random₁ = .ok (some d, registry, random₂) ∧
      ∀ target, b.grid.get? (p + b.topology.offset d) = some target →
        ∃ o registry' random₃,
          registry.samplePair cell.particle d target.particle random₂ =
            .ok (some o, registry', random₃) := by
  have hactive := ActivityTree.rate_of_sample hdrawn
  have hin : b.grid.contains p = true := by
    by_contra hout
    have hzero := h.synced.outside (p := p) (by simpa using hout)
    exact hactive (le_of_eq hzero)
  obtain ⟨cell, hc⟩ := Grid.get?_of_contains hin
  obtain ⟨d, registry, random₂, hdir, hext, hsound, hlt⟩ := exists_direction hu h hc hactive random₁
  refine ⟨cell, d, registry, random₂, hc, hdir, ?_⟩
  intro target ht
  obtain ⟨name, hn⟩ := h.alike.named hc
  obtain ⟨targetName, htn⟩ := h.alike.named ht
  have hrules : registry.rules = b.registry.rules := hext.rules
  have hsource := h.alike.sound.name?_of_keeps hext.toKeeps hn
  have htarget := h.alike.sound.name?_of_keeps hext.toKeeps htn
  have hcount : d < registry.rules.topology.count := by
    rw [hrules, h.topology]
    exact hlt
  exact exists_outcome hu hsound (hrules.symm ▸ h.probable) hsource htarget hcount random₂

/-- No cell is drawn exactly on a board without activity. -/
theorem sample_none_iff {b : Board ℝ γ} (hs : b.Synced) (hsum : b.activity.root.Summed)
    (random : γ) : (b.activity.sample random).1 = none ↔
      ∀ p, b.grid.contains p = true → b.activity.rate p = 0 := by
  rw [ActivityTree.sample_none_iff hsum random]
  constructor
  · intro hall p _
    exact hall p
  · intro hin p
    by_cases hp : b.grid.contains p = true
    · exact hin p hp
    · exact hs.outside (by simpa using hp)

/-- An attempt is idle exactly on a board without activity, and it never ends for want of a draw. -/
theorem draws_never_end [MessageReader ℝ] (hu : Generator.IsUnit γ) {b : Board ℝ γ}
    (h : b.Reachable) (hd : b.registry.rules.Declared) (random : γ) :
    (∃ o c, step { b with random } = .ok (o, c) ∧ o ≠ .noInteraction ∧
      (o = .idle ↔ ∀ p, b.grid.contains p = true → b.activity.rate p = 0)) ∧
    ∀ p random₁, b.activity.sample random = (some p, random₁) →
      ∃ cell d registry random₂, b.grid.get? p = some cell ∧
        b.registry.sampleDir cell.particle random₁ = .ok (some d, registry, random₂) ∧
        ∀ target, b.grid.get? (p + b.topology.offset d) = some target →
          ∃ o registry' random₃,
            registry.samplePair cell.particle d target.particle random₂ =
              .ok (some o, registry', random₃) := by
  have hready : b.Ready := h.ready hd.probable
  refine ⟨?_, fun p random₁ hdrawn => exists_draws hu hready hdrawn⟩
  obtain ⟨⟨o, c⟩, hstep⟩ := (hready.move (.draw random)).step_ok
  refine ⟨o, c, hstep, ?_⟩
  rw [← sample_none_iff hready.synced h.summed random]
  unfold step at hstep
  simp only at hstep
  cases hdrawn : b.activity.sample random with
  | mk drawn random₁ =>
    rw [hdrawn] at hstep
    cases drawn with
    | none =>
      cases hstep
      exact ⟨nofun, iff_of_true rfl rfl⟩
    | some p =>
      obtain ⟨cell, d, registry, random₂, hc, hdir, houtcome⟩ := exists_draws hu hready hdrawn
      simp only [hc] at hstep
      rw [hdir, ok_bind] at hstep
      obtain ⟨hidle, hnone⟩ := attemptAt_outcome houtcome hstep
      exact ⟨hnone, iff_of_false hidle nofun⟩

/-- On a board of active cells an attempt is not idle, whichever draws come. -/
theorem draws_never_end_of_active :
    ∃ b : Board ℝ (ℕ → Set.Ico (0 : ℝ) 1), Generator.IsUnit (ℕ → Set.Ico (0 : ℝ) 1) ∧
      b.Reachable ∧ b.registry.rules.Declared ∧
        ∀ random : ℕ → Set.Ico (0 : ℝ) 1, ∃ o c, step { b with random } = .ok (o, c) ∧
          o ≠ .noInteraction ∧ o ≠ .idle := by
  obtain ⟨rules, s, -, htopology, -, hdeclared, -, hrate, -⟩ := Rulebook.exists_northward []
  let config : BoardConfig := { width := 2, height := 2 }
  let lowest : ℕ → Set.Ico (0 : ℝ) 1 := fun _ => ⟨0, by norm_num⟩
  obtain ⟨b, hb⟩ := new_ok lowest (show config.validate = .ok () from rfl) htopology
    (hdeclared rfl).total
  have hr : b.Reachable := ⟨_, _, _, b, hb, .refl⟩
  have hrules : b.registry.rules = rules := (keeps_new hb).rules
  have hd : b.registry.rules.Declared := hrules ▸ hdeclared rfl
  have hin : b.grid.contains ⟨0, 0⟩ = true := by
    rw [(grid_first hb).2]
    decide +kernel
  obtain ⟨particle, hcell, hn⟩ := cell_new hb hin
  have hname : Text.truncate 256 "_" = "_" := by decide
  have hactive : b.activity.rate ⟨0, 0⟩ = 1 / 4 := by
    have hsync := hr.synced.inside hcell (hn.trans (congrArg some hname))
    rw [hrules, hrate] at hsync
    exact (Except.ok.inj hsync).symm
  refine ⟨b, isUnit_draws, hr, hd, fun random => ?_⟩
  obtain ⟨⟨o, c, hstep, hnone, hidle⟩, -⟩ := draws_never_end isUnit_draws hr hd random
  refine ⟨o, c, hstep, hnone, fun he => ?_⟩
  have hzero := hidle.mp he ⟨0, 0⟩ hin
  norm_num [hactive] at hzero

end Board

end ParticleAutomaton
