import Mathlib
import ParticleAutomaton.Proofs.ActivitySums
import ParticleAutomaton.Proofs.MirroredBonds
import ParticleAutomaton.Proofs.AngledBonds
import ParticleAutomaton.Proofs.Requests
import ParticleAutomaton.Proofs.WriteFence

namespace ParticleAutomaton

namespace Board

section

variable {R γ : Type} [Scalar R]

theorem requestRemote_registry {b : Board R γ} {p : Point} {c : Cell} (hc : b.grid.get? p = some c)
    (d : Direction) (remote : RemoteCell) :
    (b.requestRemote p d remote).registry = (b.bondEnergyAt p).2.registry := by
  unfold requestRemote
  rw [hc]

/-- A reply that changes the board overwrites its cell. -/
theorem overwritten_of_applyReply {b b' : Board R γ} (ha : b.Alike b) {m : EvolveReply R}
    (h : b.applyReply m = .ok b') (hne : b' ≠ b) :
    ∃ particle, b'.grid = overwritten b.grid m.source particle := by
  rcases applyReply_eq_ok h with ⟨registry, rfl⟩ | ⟨particle, registry, activity, journal, rfl, -⟩
  · obtain ⟨c, hc, hw⟩ := cell_of_applyReply h hne
    obtain ⟨c', hc', hw'⟩ := writes_of_applyReply ha h hne
    have hc' : b.grid.get? m.source = some c' := hc'
    cases hc.symm.trans hc'
    omega
  · exact ⟨particle, rfl⟩

end

variable {R γ : Type} [ExactScalar R]

theorem addBondEnergy_eq (g : Grid) {r s : Registry R} (h : r.SameEnergies s) (sum : R)
    (bond : Bond) :
    (addBondEnergy g (sum, s) bond).1 = sum + g.energyOf r bond ∧
      r.SameEnergies (addBondEnergy g (sum, s) bond).2 := by
  unfold addBondEnergy Grid.energyOf
  cases g.get? bond.origin with
  | none => exact ⟨(add_zero sum).symm, h⟩
  | some source =>
    cases g.get? bond.destination with
    | none => exact ⟨(add_zero sum).symm, h⟩
    | some target =>
      have hs := s.sameEnergies_energyRules source.particle target.particle bond.name
      exact ⟨congrArg (sum + ·) (h.bondEnergy ..), h.trans hs⟩

/-- The energy at a cell is that of the bonds of the grid that end there. -/
theorem bondEnergyAt_sum {b : Board R γ} (hm : b.grid.field.Mirrored) {p : Point} {c : Cell}
    (hc : b.grid.get? p = some c) :
    (b.bondEnergyAt p).1 =
        ∑ k ∈ b.grid.innerBonds.toFinset with k.EndsAt p, b.grid.energyOf b.registry k ∧
      b.registry.SameEnergies (b.bondEnergyAt p).2.registry := by
  obtain ⟨hsum, hs⟩ := Registry.sum_weighed (fun _ ht => addBondEnergy_eq b.grid ht)
    (c.bonds.bondsAt p) 0 (.refl b.registry)
  rw [zero_add, Grid.sum_bondsAt hm hc] at hsum
  unfold bondEnergyAt
  rw [hc]
  exact ⟨hsum, hs⟩

variable [Generator R γ] [MessageReader R]

/-- The barrier of a request is the energy that the board gains when a reply gives the source a new
particle, but for the bonds that a bond of the source leads to. These lose the bond that their angle
is taken to. -/
theorem barrier_exact_but_for_chains {b : Board R γ} (h : b.Reachable) (random : γ)
    {b₁ : Board R γ} (hs : step { b with random } = .ok (.remoteRequested, b₁)) :
    ∃ address q, b₁.journal.sent = b.journal.sent.push (address, .evolve q) ∧
      ∀ (m : EvolveReply R) b₂, m.source = q.source → b₁.handle (.reply m) = .ok b₂ → b₂ ≠ b₁ →
        b₂.grid.totalEnergy b₂.registry - b₁.grid.totalEnergy b₁.registry =
          q.barrier + ∑ k ∈ b₁.grid.chained q.source,
            (b₂.grid.energyOf b₂.registry k - b₁.grid.energyOf b₁.registry k) := by
  have hmove : Moves { b with random } b₁ := .step hs
  have ha := hmove.alike (h.alike.reseed random)
  have hw := hmove.wellFormed (h.alike.reseed random) (h.wellFormed.reseed random)
  have hm := mirrored_of_reachable h
  cases (effect_of_step hs).of_grown (.refl b.registry) with
  | quiet _ hr _ => exact absurd rfl hr
  | change ho => exact nomatch ho
  | request _ hrequest =>
    obtain ⟨registry, random', p, c, d, remote, -, hc, -, hb₁⟩ := hrequest
    let β : Board R γ := { b with registry, random := random' }
    have hc : β.grid.get? p = some c := hc
    obtain ⟨registry', q, -, rfl, -, hbarrier, hr⟩ := requestRemote_eq hc d remote
    have hcost := bondEnergyAt_sum (b := β) hm hc
    have hgrid : b₁.grid = b.grid := by rw [hb₁, hr]
    have henergies : β.registry.SameEnergies b₁.registry := by
      rw [hb₁, requestRemote_registry hc]
      exact hcost.2
    have hlost : -∑ k ∈ b₁.grid.innerBonds.toFinset with k.EndsAt q.source,
        b₁.grid.energyOf b₁.registry k = q.barrier := by
      rw [hbarrier, hcost.1, hgrid, Grid.energyOf_congr henergies]
    have hsent : b₁.journal.sent = b.journal.sent.push (remote.address, .evolve q) := by
      rw [hb₁, hr]
      exact Journal.sent_send ..
    refine ⟨remote.address, q, hsent, fun m b₂ hsource hb₂ hne => ?_⟩
    -- The reply takes the bonds of the source off, so that their energy is lost whatever it brings.
    obtain ⟨particle, hg⟩ := overwritten_of_applyReply ha hb₂ hne
    obtain ⟨ps, hset⟩ := resettled_of_applyReply ha.sound hw.covered hb₂
    have ha₂ : b₂.Alike b₂ := Moves.alike (.handle hb₂) ha
    rw [hg, hsource, Grid.totalEnergy_overwritten (hgrid ▸ hm) hset.retains ha.sound ha₂.sound
      ha.named particle, hlost]

end Board

/-- No text shows all of a real number, so none is read as a message. -/
instance : MessageReader ℝ := ⟨fun _ => none⟩

namespace Rulebook

/-- The rules of one rule for the north. -/
def alone (rule : TransformRule ℝ) (energies : List (EnergyRule ℝ)) : Rulebook ℝ :=
  ⟨.square4, [], [rule], [[.ofRule rule .square4 0], [], [], []], energies⟩

/-- What one rule makes of a source that it is for. -/
def aloneFor (rule : TransformRule ℝ) (slot : SourceSlot) : SourceRules ℝ :=
  ⟨[[⟨.ofRule rule .square4 0, .source slot⟩], [], [], []], ⟨[⟨0, 1, 0⟩], 1, none⟩⟩

section

variable {rule : TransformRule ℝ} {energies : List (EnergyRule ℝ)}

theorem probable_alone (hp : rule.prob = 1) : (alone rule energies).Probable := by
  intro ds hds d hd
  simp only [alone, List.mem_cons, List.not_mem_nil, or_false, or_self] at hds
  rcases hds with rfl | rfl
  · rw [List.mem_singleton.mp hd]
    show 0 ≤ rule.prob
    rw [hp]
    exact zero_le_one (α := ℝ)
  · cases hd

theorem ofName_alone (hp : rule.prob = 1) {name : String} {slot : SourceSlot}
    (h : NameMatch.sourceSlot? (.ofRule rule .square4 0) name = some slot) :
    SourceRules.ofName (alone rule energies) name = .ok (aloneFor rule slot) := by
  have hmatched : (List.range (alone rule energies).topology.count).map
      ((alone rule energies).sourceMatches name) = (aloneFor rule slot).matched := by
    simp [alone, aloneFor, Topology.count, Topology.neighbors, List.range, List.range.loop,
      sourceMatches, directedRules, h]
  have hadd : (WeightedSampler.empty : WeightedSampler Direction ℝ).add 0
      (Scalar.atMost 1 (Scalar.sum [1])) = .ok (aloneFor rule slot).rates := by
    norm_num [aloneFor, WeightedSampler.add, WeightedSampler.empty, Scalar.atMost, Scalar.sum]
  have hskip : ∀ d : Nat, (aloneFor rule slot).rates.add (d + 1) (Scalar.atMost 1 (Scalar.sum [])) =
      .ok (aloneFor rule slot).rates := by
    intro d
    have hne : ¬ 0 = d + 1 := by omega
    norm_num [aloneFor, WeightedSampler.add, Scalar.atMost, Scalar.sum, hne]
  unfold SourceRules.ofName
  rw [hmatched]
  simp only [aloneFor, List.zipIdx, List.map_cons, List.map_nil, foldlM_cons]
  rw [show (DirectedRule.ofRule rule .square4 0).rule.prob = 1 from hp, hadd, ok_bind, hskip 0,
    ok_bind, hskip 1, ok_bind, hskip 2]
  rfl

theorem activity_alone (hp : rule.prob = 1) {name : String} {slot : SourceSlot}
    (h : NameMatch.sourceSlot? (.ofRule rule .square4 0) name = some slot) :
    (alone rule energies).activity name = .ok (1 / 4) := by
  have hmean : ((1 : ℝ) / Scalar.ofInt (4 : ℤ)) = 1 / 4 := by
    show (1 : ℝ) / ((4 : ℤ) : ℝ) = 1 / 4
    norm_num
  rw [activity, ofName_alone hp h]
  show Except.ok (Scalar.atMost 1 ((1 : ℝ) / Scalar.ofInt (4 : ℤ))) = _
  rw [hmean]
  norm_num [Scalar.atMost]

end

/-- A rule for the north that always applies to a name makes it active in that direction. -/
theorem exists_northward (energies : List (EnergyRule ℝ)) :
    ∃ (rules : Rulebook ℝ) (s : SourceRules ℝ), rules.Total ∧ rules.topology = .square4 ∧
      rules.energies = energies ∧ (energies = [] → rules.Declared) ∧
      SourceRules.ofName rules "_" = .ok s ∧
      rules.activity "_" = .ok (1 / 4) ∧
      s.rates.sample zeros = (some 0, zeros) := by
  let rule : TransformRule ℝ := ⟨none, some 0, .parse "_", .parse "_", .parse "$S", .parse "$T", 1,
    .parse "", [], [], [], []⟩
  have hslot : (NameMatch.sourceSlot? (.ofRule rule .square4 0) "_").isSome = true := by
    decide +kernel
  obtain ⟨slot, hslot⟩ := Option.isSome_iff_exists.mp hslot
  refine ⟨alone rule energies, aloneFor rule slot, total_of_probs (probable_alone rfl), rfl, rfl,
    ?_, ofName_alone rfl hslot, activity_alone rfl hslot, ?_⟩
  · rintro rfl
    refine ⟨.square4,
      ⟨[], [{ dir := some "n", source := some "_", target := some "_" }], []⟩, ?_⟩
    have hrecord : TransformRule.ofRecord? .square4 _ = .ok rule :=
      TransformRule.ofRecord_north none (zero_le_one (α := ℝ))
    unfold ofRecords?
    simp only [List.mapM_cons, List.mapM_nil, hrecord]
    rfl
  · show ((aloneFor rule slot).rates.locate (0 * 1), zeros) = _
    norm_num [WeightedSampler.locate, aloneFor]

end Rulebook

namespace Board

theorem grid_first {R γ : Type} [Scalar R] {config : BoardConfig} {rules : Rulebook R} {random : γ}
    {b : Board R γ} (h : new config rules random = .ok b) :
    b.config = config ∧ b.grid = Grid.new config.width config.height ⟨0, 0⟩ := by
  have hfirst : (filler config rules).1 = ⟨0, 0⟩ := by
    unfold filler
    rw [Registry.intern_eq]
    simp [Registry.new, Registry.enroll]
    rfl
  obtain ⟨-, -, activity, -, h⟩ := new_eq_ok.mp h
  obtain ⟨registry, activity, rfl⟩ := refreshRates_eq_ok h
  exact ⟨rfl, congrArg (Grid.new config.width config.height) hfirst⟩

/-- A board on which a bond leads from a cell around a corner, and the cell asks another board. -/
theorem exists_bent {rules : Rulebook ℝ} (ht : rules.Total) (htopology : rules.topology = .square4)
    {s : SourceRules ℝ} (hs : SourceRules.ofName rules "_" = .ok s)
    (hrate : rules.activity "_" = .ok (1 / 4))
    (hd : s.rates.sample zeros = (some 0, zeros)) :
    ∃ (b b₁ : Board ℝ (ℕ → ℝ)) (address : String) (q : EvolveRequest ℝ), b.Reachable ∧
      b.registry.rules = rules ∧ b.registry.name? ⟨0, 0⟩ = some "_" ∧
      step { b with random := zeros } = .ok (.remoteRequested, b₁) ∧
      b₁.grid = Grid.bent ⟨0, 0⟩ ∧
      b₁.journal.sent = b.journal.sent.push (address, .evolve q) ∧
      q.source = ⟨0, 0⟩ ∧ q.writes = 0 := by
  let config : BoardConfig := { width := 2, height := 2 }
  have hv : config.validate = .ok () := rfl
  obtain ⟨b, hb⟩ := new_ok zeros hv htopology ht
  have hr : b.Reachable := ⟨_, _, _, b, hb, .refl⟩
  have hrules : b.registry.rules = rules := (keeps_new hb).rules
  obtain ⟨hconfig, hg⟩ := grid_first hb
  have hg : b.grid = Grid.new 2 2 ⟨0, 0⟩ := hg
  have hin : b.grid.contains ⟨0, 0⟩ = true := by
    rw [hg]
    decide +kernel
  obtain ⟨particle, hcell, hn⟩ := cell_new hb hin
  obtain rfl : particle = ⟨0, 0⟩ := by
    rw [hg] at hcell
    exact congrArg Cell.particle (Grid.get?_new hcell)
  have hname : Text.truncate 256 "_" = "_" := by decide
  have hn : b.registry.name? ⟨0, 0⟩ = some "_" := hn.trans (congrArg some hname)
  have hrate₀ : b.activity.rate ⟨0, 0⟩ = 1 / 4 := by
    have hsync := hr.synced.inside hcell hn
    rw [hrules, hrate] at hsync
    exact (Except.ok.inj hsync).symm
  have hsampled := ActivityTree.sample_zeros (summed_new hb) (by rw [hrate₀]; norm_num)
  let first : Bond := ⟨⟨0, 0⟩, ⟨1, 0⟩, "k"⟩
  let far : RemoteCell := ⟨"far", ⟨0, 0⟩⟩
  have hfirst : b.grid.contains first.origin = true := hin
  have hcorner : (b.grid.link first).contains Grid.corner.origin = true := by
    rw [(Grid.sameStates_link b.grid first).contains, hg]
    decide +kernel
  have hbent : (b.grid.link first).link Grid.corner = .bent ⟨0, 0⟩ := by
    rw [hg]
    rfl
  have hlinked : Reachable { b with grid := .bent ⟨0, 0⟩ } := by
    rw [← hbent]
    exact (hr.link (by decide) hfirst).link (by decide) hcorner
  have hside : (Grid.bent ⟨0, 0⟩).contains ⟨0, -1⟩ = false := by decide +kernel
  let remotes : List (Point × RemoteCell) := (⟨0, -1⟩, far) :: b.remotes.filter (·.1 ≠ ⟨0, -1⟩)
  have hr' : Reachable { b with grid := .bent ⟨0, 0⟩, remotes } := hlinked.connect hside far
  have hasking : ((Grid.bent ⟨0, 0⟩).get? ⟨0, 0⟩).any (fun c =>
      c.particle == ⟨0, 0⟩ && c.writes == 0) = true := by
    decide +kernel
  obtain ⟨cell, hasking, h⟩ := (Option.any_eq_true ..).mp hasking
  obtain ⟨hparticle, hwrites⟩ := Bool.and_eq_true_iff.mp h
  have hnorth : ⟨0, 0⟩ + b.config.topology.offset 0 = ⟨0, -1⟩ := by
    rw [hconfig]
    rfl
  have hout : (Grid.bent ⟨0, 0⟩).get? (⟨0, 0⟩ + b.config.topology.offset 0) = none := by
    rw [hnorth]
    exact Grid.get?_eq_none_iff.mpr hside
  have hfar : remotes.lookup (⟨0, 0⟩ + b.config.topology.offset 0) = some far := by
    rw [hnorth]
    exact List.lookup_cons_self
  obtain ⟨b₁, q, hstep, hgrid, hsent, hq, hw⟩ :=
    step_requests (hr'.alike.reseed zeros) hsampled hasking ((beq_iff_eq.mp hparticle).symm ▸ hn)
      (hrules.symm ▸ hs) hd hout hfar
  exact ⟨_, b₁, "far", q, hr', hrules, hn, hstep, hgrid, hsent, hq,
    hw.trans (beq_iff_eq.mp hwrites)⟩

/-- A reply that comes at once takes the bond off that leads around the corner. The bond behind the
corner loses its energy, which the barrier does not tell. -/
theorem barrier_exact_but_for_chains_of_bent :
    ∃ (b b₁ b₂ : Board ℝ (ℕ → ℝ)) (q : EvolveRequest ℝ) (m : EvolveReply ℝ), b.Reachable ∧
      step { b with random := zeros } = .ok (.remoteRequested, b₁) ∧ m.source = q.source ∧
      b₁.handle (.reply m) = .ok b₂ ∧ b₂ ≠ b₁ ∧
      b₂.grid.totalEnergy b₂.registry - b₁.grid.totalEnergy b₁.registry = q.barrier - 1 := by
  obtain ⟨rule, hbond, hmatch, henergy, hgeometry⟩ := EnergyRule.exists_angled
  obtain ⟨rules, s, ht, htopology, henergies, -, hs, hrate, hd⟩ :=
    Rulebook.exists_northward [rule]
  obtain ⟨b, b₁, address, q, hr, hrules, hn, hstep, hgrid, hsent, hsource, hwrites⟩ :=
    exists_bent ht htopology hs hrate hd
  have ha : Alike { b with random := zeros } { b with random := zeros } := hr.alike.reseed zeros
  have ha₁ : b₁.Alike b₁ := Moves.alike (.step hstep) ha
  have hw₁ : b₁.WellFormed := (Moves.step hstep).wellFormed ha (hr.wellFormed.reseed zeros)
  obtain ⟨ps, hset⟩ := (effect_of_step hstep).resettled ha.sound hr.wellFormed.covered
  have hretains : b.registry.Retains b₁.registry := hset.retains
  have hrules₁ : b₁.registry.rules = rules := hretains.rules.trans hrules
  have hn₁ : b₁.registry.name? ⟨0, 0⟩ = some "_" := hretains.name? hn
  -- The reply names another particle than that of the cell, and is not stale.
  have hcell :
      (b₁.grid.get? ⟨0, 0⟩).any (fun c => c.particle == ⟨0, 0⟩ && c.writes == 0) = true := by
    rw [hgrid]
    decide +kernel
  obtain ⟨cell, hcell, h⟩ := (Option.any_eq_true ..).mp hcell
  obtain ⟨hparticle, hw⟩ := Bool.and_eq_true_iff.mp h
  have hne : (b₁.registry.intern "a").1 ≠ cell.particle := by
    intro he
    obtain ⟨-, hext, hnew⟩ := ha₁.sound.intern "a"
    rw [he, beq_iff_eq.mp hparticle, ha₁.sound.name?_of_keeps hext.toKeeps hn₁] at hnew
    have hname : ∀ n, Text.truncate n "a" ≠ "_" := by
      intro n
      unfold Text.truncate
      rw [show "a".toList = ['a'] from rfl, Text.takeBytes]
      split <;> simp [Text.takeBytes, ← String.toList_inj]
    exact hname _ (Option.some.inj hnew).symm
  let m : EvolveReply ℝ := ⟨⟨0, 0⟩, "a", 0, 0⟩
  obtain ⟨b₂, hb₂, hne₂⟩ :=
    applyReply_fresh (m := m) ha₁ (hrules₁.symm ▸ ht) hcell (beq_iff_eq.mp hw) hne
  have ha₂ : b₂.Alike b₂ := Moves.alike (.handle (m := .reply m) hb₂) ha₁
  obtain ⟨ps₂, hset₂⟩ := resettled_of_applyReply ha₁.sound hw₁.covered hb₂
  obtain ⟨particle, hgrid₂⟩ := overwritten_of_applyReply ha₁ hb₂ hne₂
  have hbefore : b₁.grid.energyOf b₁.registry Grid.corner = 1 := by
    rw [hgrid, Grid.energyOf_corner Grid.turnsCorner_bent ha₁.sound hn₁ (hrules₁.symm ▸ henergies)
      hbond hmatch hgeometry, henergy]
  have hafter : b₂.grid.energyOf b₂.registry Grid.corner = 0 := by
    refine Grid.energyOf_alone ha₂.sound ?_ ?_
    · rw [hset₂.retains.rules, hrules₁, henergies]
      intro other hother
      rw [List.mem_singleton.mp hother, hgeometry]
      rfl
    · have hput : (overwritten (.bent ⟨0, 0⟩) ⟨0, 0⟩ particle).get? ⟨1, 0⟩ =
          ((Grid.bent ⟨0, 0⟩).removeBonds ⟨0, 0⟩).2.get? ⟨1, 0⟩ := by
        rw [overwritten, Grid.get?_put]
        exact if_neg (by decide)
      rw [hgrid₂, hgrid, Grid.incoming?, show Grid.corner.origin = ⟨1, 0⟩ from rfl, hput]
      decide +kernel
  obtain ⟨address', q', hsent', hexact⟩ := barrier_exact_but_for_chains hr zeros hstep
  obtain ⟨hq, -⟩ := Array.push_eq_push.mp (hsent.symm.trans hsent')
  cases hq
  have hgain := hexact m b₂ hsource.symm hb₂ hne₂
  rw [hsource, hgrid, Grid.chained_bent, Finset.sum_singleton, ← hgrid, hbefore, hafter] at hgain
  refine ⟨b, b₁, b₂, q, m, hr, hstep, hsource.symm, hb₂, hne₂, ?_⟩
  rw [hgain, zero_sub, sub_eq_add_neg]

end Board

end ParticleAutomaton
