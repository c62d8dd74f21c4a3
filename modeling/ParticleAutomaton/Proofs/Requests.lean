import ParticleAutomaton.Proofs.ActivitySync
import ParticleAutomaton.Proofs.DeclaredRules

namespace ParticleAutomaton

variable {R γ : Type}

/-- The square of a single cell draws that cell if it is active. -/
theorem ActivityTree.sample_single [Scalar R] [Generator R γ] {t : ActivityTree R}
    (hs : t.size = 1) (hr : ¬ t.rate ⟨0, 0⟩ ≤ 0) (g : γ) : t.sample g = (some ⟨0, 0⟩, g) := by
  obtain ⟨depth, root⟩ := t
  obtain rfl : depth = 0 := by
    have hpow : 2 ^ depth = 1 := hs
    by_contra hne
    have htwo : 2 ≤ 2 ^ depth := Nat.le_self_pow hne 2
    omega
  cases root with
  | leaf rate => exact if_neg hr

namespace Board

theorem size_activity_new [Scalar R] {config : BoardConfig} {rules : Rulebook R} {random : γ}
    {b : Board R γ} (h : new config rules random = .ok b) :
    b.activity.size = ActivityTree.leastPower (max config.width config.height) := by
  obtain ⟨-, -, activity, hcovering, h⟩ := new_eq_ok.mp h
  obtain ⟨hcovers, -⟩ := ActivityTree.covers_covering hcovering
  have hstill : (still config rules random activity).Covered := fun p hp => hcovers.place? hp
  rw [(refreshed_of_refreshRates hstill h).size]
  unfold ActivityTree.covering ActivityTree.ofSize at hcovering
  split at hcovering
  next hpow =>
    cases hcovering
    exact hpow
  next => exact nomatch hcovering

/-- A cell that is drawn with a direction in which another board lies asks that board. -/
theorem step_requests [Scalar R] [Generator R γ] {b : Board R γ} (ha : b.Alike b) {p : Point}
    {random random' : γ} (hp : b.activity.sample b.random = (some p, random)) {cell : Cell}
    (hcell : b.grid.get? p = some cell) {name : String}
    (hn : b.registry.name? cell.particle = some name) {s : SourceRules R}
    (hs : SourceRules.ofName b.registry.rules name = .ok s) {d : Direction}
    (hd : s.rates.sample random = (some d, random'))
    (hout : b.grid.get? (p + b.topology.offset d) = none) {remote : RemoteCell}
    (hr : b.remotes.lookup (p + b.topology.offset d) = some remote) :
    ∃ b₁ q, b.step = .ok (.remoteRequested, b₁) ∧ b₁.grid = b.grid ∧
      b₁.journal.sent = b.journal.sent.push (remote.address, .evolve q) ∧
      q.source = p ∧ q.writes = cell.writes := by
  have hagree := Registry.sampleDir_agree ha.sound hn random
  rw [hs, Except.map, hd] at hagree
  obtain ⟨⟨_, registry, random''⟩, hx, rfl, -, -⟩ := hagree.eq_ok
  let drawn : Board R γ := { b with registry, random := random'' }
  obtain ⟨registry', q, -, hq, hw, -, hb₁⟩ :=
    requestRemote_eq (b := drawn) (show drawn.grid.get? p = some cell from hcell) d remote
  have hout' : drawn.grid.get? (p + drawn.topology.offset d) = none := hout
  have hr' : drawn.remotes.lookup (p + drawn.topology.offset d) = some remote := hr
  refine ⟨drawn.requestRemote p d remote, q, ?_, by rw [hb₁], ?_, hq, hw⟩
  · unfold step
    simp only [hp, hcell]
    rw [hx, ok_bind]
    show drawn.attemptAt p cell.particle d = _
    unfold attemptAt
    simp only [hout', hr']
  · rw [hb₁]
    exact Journal.sent_send ..

section

variable [Scalar R] [Generator R γ] [MessageReader R] {b : Board R γ}

theorem Reachable.connect (h : b.Reachable) {p : Point} (hp : b.grid.contains p = false)
    (cell : RemoteCell) :
    Reachable { b with remotes := (p, cell) :: b.remotes.filter (·.1 ≠ p) } := by
  have hc : b.connect p cell =
      (true, { b with remotes := (p, cell) :: b.remotes.filter (·.1 ≠ p) }) :=
    if_neg (by simp [hp])
  have hrun : Operation.runAll b [.connect p cell] =
      .ok ([.flag (b.connect p cell).1], (b.connect p cell).2) := rfl
  rw [hc] at hrun
  exact h.runAll hrun

theorem Reachable.link (h : b.Reachable) {bond : Bond} (hne : bond.origin ≠ bond.destination)
    (ho : b.grid.contains bond.origin = true) :
    Reachable { b with grid := b.grid.link bond } := by
  have hl : b.addBond bond = (true, { b with grid := b.grid.link bond }) := by
    rw [addBond_eq]
    exact if_neg (by simp [hne, ho])
  have hrun : Operation.runAll b [.addBond bond] =
      .ok ([.flag (b.addBond bond).1], (b.addBond bond).2) := rfl
  rw [hl] at hrun
  exact h.runAll hrun

end

/-- Rules from records make boards of any size, all cells of which hold the configured particle and
were never written. -/
theorem declared_new [RateScalar R] [Generator R γ] [MessageReader R] {config : BoardConfig}
    {rules : Rulebook R} (random : γ)
    (hv : config.validate = .ok ()) (hd : rules.Declared)
    (ht : rules.topology = config.topology) :
    ∃ b : Board R γ, b.Reachable ∧ b.registry.rules = rules ∧ b.config = config ∧
      (∃ filler, b.grid = Grid.new config.width config.height filler) ∧
      ∀ p, b.grid.contains p = true → b.writes? p = some 0 ∧
        b.particleName? p =
          some (Text.truncate (max 1 config.maxNameLen) config.emptyParticle) := by
  obtain ⟨b, hb⟩ := new_ok random hv ht hd.total
  refine ⟨b, ⟨_, _, _, b, hb, .refl⟩, (keeps_new hb).rules, config_new hb, grid_new hb,
    fun p hp => ?_⟩
  obtain ⟨particle, hcell, hname⟩ := cell_new hb hp
  rw [writes?, particleName?, hcell]
  exact ⟨rfl, congrArg some (Registry.name_of hname)⟩

/-- The only cell of a board, if it is active, asks another board on the side that is drawn. -/
theorem lone_requests [RateScalar R] [Generator R γ] [MessageReader R] {rules : Rulebook R}
    (ht : rules.Total) {rate : R} (hrate : rules.activity "_" = .ok rate) (hactive : ¬ rate ≤ 0)
    {s : SourceRules R} (hs : SourceRules.ofName rules "_" = .ok s) {random random' : γ}
    {d : Direction} (hd : s.rates.sample random = (some d, random')) :
    ∃ b b₁ : Board R γ, b.Reachable ∧ b.registry.rules = rules ∧ b.config.maxNameLen = 256 ∧
      step { b with random } = .ok (.remoteRequested, b₁) := by
  let config : BoardConfig := { width := 1, height := 1, topology := rules.topology }
  have hv : config.validate = .ok () := rfl
  obtain ⟨b, hb⟩ := new_ok random hv rfl ht
  have hr : b.Reachable := ⟨_, _, _, b, hb, .refl⟩
  have hrules : b.registry.rules = rules := (keeps_new hb).rules
  obtain ⟨filler, hg⟩ := grid_new hb
  have hin : ∀ p, b.grid.contains p = true ↔ p = ⟨0, 0⟩ := by
    intro p
    rw [Grid.contains_iff, hg, Point.eq_iff]
    simp only [Grid.new, config]
    omega
  obtain ⟨particle, hcell, hn⟩ := cell_new hb ((hin _).mpr rfl)
  have hname : Text.truncate 256 "_" = "_" := by decide
  have hn : b.registry.name? particle = some "_" := hn.trans (congrArg some hname)
  have hsampled : b.activity.sample random = (some ⟨0, 0⟩, random) := by
    refine ActivityTree.sample_single (size_activity_new hb) ?_ random
    have hsync := hr.synced.inside hcell hn
    rw [hrules, hrate] at hsync
    rwa [← Except.ok.inj hsync]
  let side : Point := ⟨0, 0⟩ + b.topology.offset d
  have hout : b.grid.contains side = false := by
    by_contra h
    exact Topology.add_offset_ne _ _ _ ((hin side).mp (by simpa using h)).symm
  have hr' := hr.connect hout ⟨"far", ⟨0, 0⟩⟩
  obtain ⟨b₁, -, hstep, -⟩ := step_requests (hr'.alike.reseed random) hsampled hcell hn
    (hrules.symm ▸ hs) hd (Grid.get?_eq_none_iff.mpr hout) List.lookup_cons_self
  refine ⟨_, b₁, hr', hrules, ?_, hstep⟩
  exact congrArg BoardConfig.maxNameLen (config_new hb)

end Board

end ParticleAutomaton
