import ParticleAutomaton.Proofs.Events
import ParticleAutomaton.Proofs.Operations
import ParticleAutomaton.Proofs.RegistryGrowth

namespace ParticleAutomaton.Board

variable {R γ : Type}

theorem sent_drawAll (j : Journal R) (ps : List Point) : (j.drawAll ps).sent = j.sent := by
  unfold Journal.drawAll
  induction ps generalizing j with
  | nil => rfl
  | cons p ps ih => exact (ih (j.draw p)).trans (j.sent_draw p)

variable [Scalar R]

theorem refreshRate_eq_ok {b b' : Board R γ} {p : Point} (h : b.refreshRate p = .ok b') :
    ∃ registry activity, b' = { b with registry, activity } := by
  unfold refreshRate at h
  split at h
  next =>
    cases h
    exact ⟨_, _, rfl⟩
  next =>
    obtain ⟨⟨rate, registry⟩, -, h⟩ := bind_eq_ok.mp h
    cases h
    exact ⟨_, _, rfl⟩

theorem refreshRates_eq_ok {b b' : Board R γ} {ps : List Point} (h : b.refreshRates ps = .ok b') :
    ∃ registry activity, b' = { b with registry, activity } := by
  refine foldlM_relates (r := fun b b' : Board R γ =>
    ∃ registry activity, b' = { b with registry, activity }) (fun b => ⟨_, _, rfl⟩) ?_
    (fun p _ b b' hb => refreshRate_eq_ok hb) h
  rintro _ _ _ ⟨_, _, rfl⟩ ⟨_, _, rfl⟩
  exact ⟨_, _, rfl⟩

/-- A board whose cells all hold the configured particle, without activity. -/
def still (config : BoardConfig) (rules : Rulebook R) (random : γ) (activity : ActivityTree R) :
    Board R γ :=
  let (filler, registry) := (Registry.new rules config.maxNameLen).intern config.emptyParticle
  let grid := Grid.new config.width config.height filler
  ⟨config, grid, grid.points.foldl (fun r _ => r.addCount filler) registry, activity, [], random,
    .empty⟩

theorem new_eq_ok {config : BoardConfig} {rules : Rulebook R} {random : γ} {b : Board R γ} :
    new config rules random = .ok b ↔
      config.validate = .ok () ∧ rules.topology = config.topology ∧
        ∃ activity, ActivityTree.covering config.width config.height = .ok activity ∧
          (still config rules random activity).refreshRates
            (still config rules random activity).grid.points = .ok b := by
  have hu : (∃ u, config.validate = .ok u) ↔ config.validate = .ok () :=
    ⟨fun ⟨(), h⟩ => h, fun h => ⟨(), h⟩⟩
  unfold new
  rw [bind_eq_ok]
  simp only [mapError_eq_ok]
  by_cases ht : rules.topology = config.topology
  · simp [ht, bind_eq_ok, mapError_eq_ok, still, hu]
  · simp [ht, error_bind]

theorem config_new {config : BoardConfig} {rules : Rulebook R} {random : γ} {b : Board R γ}
    (h : new config rules random = .ok b) : b.config = config := by
  obtain ⟨-, -, activity, -, h⟩ := new_eq_ok.mp h
  obtain ⟨registry, activity, rfl⟩ := refreshRates_eq_ok h
  rfl

theorem grid_new {config : BoardConfig} {rules : Rulebook R} {random : γ} {b : Board R γ}
    (h : new config rules random = .ok b) :
    ∃ filler, b.grid = Grid.new config.width config.height filler := by
  obtain ⟨-, -, activity, -, h⟩ := new_eq_ok.mp h
  obtain ⟨registry, activity, rfl⟩ := refreshRates_eq_ok h
  exact ⟨_, rfl⟩

/-- The grid after a particle is written to a cell that loses its bonds. -/
def overwritten (g : Grid) (p : Point) (particle : ParticleId) : Grid :=
  (g.removeBonds p).2.put p particle

theorem write_eq_ok {b b' : Board R γ} {p : Point} {particle : ParticleId} {touched : List Point}
    (h : b.write p particle = .ok (touched, b')) :
    ∃ registry activity,
      b' = { b with grid := overwritten b.grid p particle, registry, activity } := by
  unfold write at h
  split at h
  next hn =>
    cases h
    refine ⟨b.registry, b.activity, ?_⟩
    have hc := Grid.get?_eq_none_iff.mp hn
    have hg : overwritten b.grid p particle = b.grid := by
      rw [overwritten, Grid.removeBonds, hn]
      exact Grid.put_of_not_contains hc particle
    rw [hg]
  next =>
    simp only at h
    split at h
    all_goals
      obtain ⟨registry, -, h⟩ := bind_eq_ok.mp h
      obtain ⟨c, hc, h⟩ := bind_eq_ok.mp h
      obtain ⟨registry', activity, rfl⟩ := refreshRate_eq_ok hc
      cases h
      exact ⟨_, _, rfl⟩

/-- To set a cell does nothing, or writes the particle of the name and shows what has changed. -/
theorem set_cases {b c : Board R γ} {p : Point} {name : String} {done : Bool}
    (h : b.set p name = .ok (done, c)) :
    c = b ∨ ∃ touched d,
      write { b with registry := (b.registry.intern name).2 } p (b.registry.intern name).1 =
        .ok (touched, d) ∧ c = d.drawAll touched := by
  unfold set at h
  split at h
  next =>
    cases h
    exact Or.inl rfl
  next =>
    obtain ⟨⟨touched, d⟩, hd, h⟩ := bind_eq_ok.mp h
    cases h
    exact Or.inr ⟨touched, d, hd, rfl⟩

/-- A change is written, then the activities of all cells that it tells are set, and they are
shown. -/
theorem commit_cases {b c : Board R γ} {e : UpdateEvent R} (h : b.commit e = .ok c) :
    ∃ touched grid registry d journal,
      e.commit b.grid b.registry = .ok (touched, grid, registry) ∧
      refreshRates { b with grid, registry } touched = .ok d ∧ c = { d with journal } ∧
      journal.drawn = (d.journal.drawAll touched).drawn ∧ journal.sent = d.journal.sent := by
  unfold commit at h
  simp only at h
  obtain ⟨⟨touched, grid, registry⟩, hc, h⟩ := bind_eq_ok.mp h
  obtain ⟨d, hd, h⟩ := bind_eq_ok.mp h
  cases h
  split
  · exact ⟨touched, grid, registry, d, _, hc, hd, rfl, rfl, sent_drawAll ..⟩
  · exact ⟨touched, grid, registry, d, _, hc, hd, rfl, Journal.drawn_announce ..,
      (Journal.sent_announce ..).trans (sent_drawAll ..)⟩

/-- A reply is passed over, or makes its name known at most, or is written and shown. -/
theorem applyReply_cases {b c : Board R γ} {m : EvolveReply R} (h : b.applyReply m = .ok c) :
    c = b ∨ c = { b with registry := (b.registry.intern m.newState).2 } ∨ ∃ touched d,
      write { b with registry := (b.registry.intern m.newState).2 } m.source
        (b.registry.intern m.newState).1 = .ok (touched, d) ∧ c = d.drawAll touched := by
  unfold applyReply at h
  split at h
  next =>
    cases h
    exact Or.inl rfl
  next =>
    split at h
    next =>
      cases h
      exact Or.inl rfl
    next =>
      simp only at h
      split at h
      next =>
        cases h
        exact Or.inr (Or.inl rfl)
      next =>
        obtain ⟨⟨touched, d⟩, hd, h⟩ := bind_eq_ok.mp h
        cases h
        exact Or.inr (Or.inr ⟨touched, d, hd, rfl⟩)

/-- A snapshot that does not fit makes its names known at most. Another one is counted anew, and all
cells are shown. -/
theorem restore_cases {b c : Board R γ} {s : Snapshot} {r : Except SnapshotError Unit}
    (h : b.restore s = .ok (r, c)) :
    c = b ∨ c = { b with registry := (b.stage s.cells).2 } ∨
      (b.stage s.cells).1.gap? = none ∧ ∃ registry d,
        recount b.grid (b.stage s.cells).1 (b.stage s.cells).2 = .ok registry ∧
        refreshRates { b with grid := (b.stage s.cells).1, registry }
          (b.stage s.cells).1.points = .ok d ∧
        c = d.drawAll (b.stage s.cells).1.points := by
  unfold restore at h
  split at h
  next =>
    cases h
    exact Or.inl rfl
  next =>
    split at h
    next =>
      cases h
      exact Or.inl rfl
    next =>
      simp only at h
      split at h
      next =>
        cases h
        exact Or.inr (Or.inl rfl)
      next hg =>
        obtain ⟨registry, hr, h⟩ := bind_eq_ok.mp h
        obtain ⟨d, hd, h⟩ := bind_eq_ok.mp h
        cases h
        exact Or.inr (Or.inr ⟨hg, registry, d, hr, hd, rfl⟩)

theorem set_eq_ok {b b' : Board R γ} {p : Point} {name : String} {done : Bool}
    (h : b.set p name = .ok (done, b')) :
    b' = b ∨ ∃ particle registry activity journal,
      b' = { b with grid := overwritten b.grid p particle, registry, activity, journal } ∧
        journal.sent = b.journal.sent := by
  rcases set_cases h with rfl | ⟨touched, d, hd, rfl⟩
  · exact Or.inl rfl
  · obtain ⟨registry, activity, rfl⟩ := write_eq_ok hd
    exact Or.inr ⟨_, _, _, _, rfl, sent_drawAll ..⟩

theorem commit_eq_ok {b b' : Board R γ} {e : UpdateEvent R} (h : b.commit e = .ok b') :
    ∃ registry activity journal,
      b' = { b with grid := e.applied b.grid, registry, activity, journal } ∧
        journal.sent = b.journal.sent := by
  obtain ⟨touched, grid, registry, d, journal, hc, hd, rfl, -, hsent⟩ := commit_cases h
  obtain ⟨registry', activity, rfl⟩ := refreshRates_eq_ok hd
  obtain rfl := UpdateEvent.commit_eq_ok hc
  exact ⟨_, _, _, rfl, hsent⟩

theorem bondEnergyAt_eq (b : Board R γ) (p : Point) :
    ∃ registry, b.registry.Grows registry ∧ (b.bondEnergyAt p).2 = { b with registry } := by
  have hadd : ∀ (s : R × Registry R) bond, s.2.Grows (addBondEnergy b.grid s bond).2 := by
    intro s bond
    unfold addBondEnergy
    split
    next source target _ _ => exact s.2.grows_energyRules source.particle target.particle bond.name
    next => exact .refl s.2
  unfold bondEnergyAt
  split
  next => exact ⟨_, .refl _, rfl⟩
  next c _ =>
    exact ⟨_, Registry.grows_weigh hadd (c.bonds.bondsAt p) (0, b.registry), rfl⟩

/-- A request tells the name of its cell and the writes to it at the time, and changes no cell. -/
theorem requestRemote_sends {b : Board R γ} {p : Point} {c : Cell} (hc : b.grid.get? p = some c)
    (d : Direction) (remote : RemoteCell) :
    ∃ registry : Registry R, b.registry.Grows registry ∧
      b.requestRemote p d remote =
        { b with registry, journal := b.journal.send remote.address (.evolve
          ⟨remote.point, registry.name c.particle, d, -(b.bondEnergyAt p).1, p, b.config.address,
            c.writes⟩) } := by
  unfold requestRemote
  rw [hc]
  obtain ⟨registry, hg, hr⟩ := bondEnergyAt_eq b p
  simp only [hr]
  exact ⟨registry, hg, rfl⟩

theorem requestRemote_eq {b : Board R γ} {p : Point} {c : Cell} (hc : b.grid.get? p = some c)
    (d : Direction) (remote : RemoteCell) :
    ∃ (registry : Registry R) (q : EvolveRequest R), b.registry.Grows registry ∧ q.source = p ∧
      q.writes = c.writes ∧ q.barrier = -(b.bondEnergyAt p).1 ∧
      b.requestRemote p d remote =
        { b with registry, journal := b.journal.send remote.address (.evolve q) } := by
  obtain ⟨registry, hg, hr⟩ := requestRemote_sends hc d remote
  exact ⟨registry, _, hg, rfl, rfl, rfl, hr⟩

/-- A change that an attempt is about: its ends are neighbors, and its outcome is drawn for their
particles. -/
structure Proposed [Generator R γ] (b : Board R γ) (e : UpdateEvent R) : Prop where
  plan : e.plan = .empty
  neighbors : e.target = e.source + b.topology.offset e.dir
  source : e.remote = false → ∃ c, b.grid.get? e.source = some c ∧ c.particle = e.oldSource
  target : ∃ c, b.grid.get? e.target = some c ∧ c.particle = e.oldTarget
  drawn : ∃ (registry registry' : Registry R) (random random' : γ), b.registry.Grows registry ∧
    registry.samplePair e.oldSource e.dir e.oldTarget random =
      .ok (some e.outcome, registry', random')

variable [Generator R γ]

theorem Proposed.of_grown {b : Board R γ} {registry : Registry R} {random : γ} {e : UpdateEvent R}
    (h : Proposed { b with registry, random } e) (hg : b.registry.Grows registry) :
    b.Proposed e := by
  obtain ⟨drawing, drawn, u, v, hd, hs⟩ := h.drawn
  exact ⟨h.plan, h.neighbors, h.source, h.target, drawing, drawn, u, v, hg.trans hd, hs⟩

theorem Proposed.planned {b : Board R γ} {e e' : UpdateEvent R} {bound : Bool} (h : b.Proposed e)
    (hb : e.bind b.grid = .ok (bound, e')) : UpdateEvent.Planned b.grid e'.plan := by
  obtain ⟨labels, plan, rfl, hp⟩ := UpdateEvent.bind_eq_ok hb
  rcases hp with rfl | hp
  · exact h.plan ▸ UpdateEvent.planned_empty b.grid
  · exact hp

/-- All that an attempt can do to a board; the source is on another board or not. -/
inductive Effect (b : Board R γ) (remote : Bool) (o : StepOutcome) (b' : Board R γ) : Prop
  | quiet (ha : o ≠ .accepted) (hr : o ≠ .remoteRequested)
      (h : ∃ registry random, b.registry.Grows registry ∧ b' = { b with registry, random })
  | request (ho : o = .remoteRequested)
      (h : ∃ registry random p c d cell, b.registry.Grows registry ∧ b.grid.get? p = some c ∧
        b.remotes.lookup (p + b.topology.offset d) = some cell ∧
        b' = requestRemote { b with registry, random } p d cell)
  | change (ho : o = .accepted) (e e' : UpdateEvent R) (hp : b.Proposed e)
      (hr : e.remote = remote) (hb : e.bind b.grid = .ok (true, e'))
      (h : ∃ registry random, b.registry.Grows registry ∧
        commit { b with registry, random } e' = .ok b')

/-- Drawn numbers and what is remembered make no difference to the effect. -/
theorem Effect.of_grown {b b' : Board R γ} {registry : Registry R} {random : γ} {remote : Bool}
    {o : StepOutcome} (h : Effect { b with registry, random } remote o b')
    (hg : b.registry.Grows registry) : Effect b remote o b' := by
  cases h with
  | quiet ha hr h =>
    obtain ⟨registry', random', hg', rfl⟩ := h
    exact .quiet ha hr ⟨registry', random', hg.trans hg', rfl⟩
  | request ho h =>
    obtain ⟨registry', random', p, c, d, cell, hg', h⟩ := h
    exact .request ho ⟨registry', random', p, c, d, cell, hg.trans hg', h⟩
  | change ho e e' hp hr hb h =>
    obtain ⟨registry', random', hg', h⟩ := h
    exact .change ho e e' (hp.of_grown hg) hr hb ⟨registry', random', hg.trans hg', h⟩

theorem accept_eq (b : Board R γ) (delta : R) :
    ∃ random, (b.accept delta).2 = { b with random } := by
  unfold accept
  split
  · exact ⟨_, rfl⟩
  · exact ⟨_, rfl⟩

theorem effect_of_propose {b b' : Board R γ} {registry : Registry R} {random : γ}
    {e : UpdateEvent R} {barrier delta : R} {o : StepOutcome} (he : b.Proposed e)
    (hg : b.registry.Grows registry)
    (h : propose { b with registry, random } e barrier = .ok (o, delta, b')) :
    Effect b e.remote o b' := by
  unfold propose at h
  obtain ⟨⟨bound, e'⟩, hb, h⟩ := bind_eq_ok.mp h
  simp only at h
  split at h
  next =>
    cases h
    exact .quiet nofun nofun ⟨registry, random, hg, rfl⟩
  next hbound =>
    have hb : e.bind b.grid = .ok (true, e') := by
      rw [hb]
      simpa using hbound
    have hweighed := e'.grows_energyDelta b.grid registry barrier
    generalize e'.energyDelta b.grid registry barrier = weighed at h hweighed
    obtain ⟨random', hr⟩ := accept_eq { b with registry := weighed.2, random } weighed.1
    rw [hr] at h
    split at h
    next =>
      obtain ⟨c, hc, h⟩ := bind_eq_ok.mp h
      cases h
      exact .change rfl e e' he rfl hb ⟨weighed.2, random', hg.trans hweighed, hc⟩
    next =>
      cases h
      exact .quiet nofun nofun ⟨weighed.2, random', hg.trans hweighed, rfl⟩

theorem effect_of_attemptAt {b b' : Board R γ} {p : Point} {c : Cell} {d : Direction}
    {o : StepOutcome} (hc : b.grid.get? p = some c)
    (h : b.attemptAt p c.particle d = .ok (o, b')) : Effect b false o b' := by
  unfold attemptAt at h
  simp only at h
  split at h
  next =>
    split at h
    next cell hcell =>
      cases h
      exact .request rfl ⟨b.registry, b.random, p, c, d, cell, .refl _, hc, hcell, rfl⟩
    next =>
      cases h
      exact .quiet nofun nofun ⟨b.registry, b.random, .refl _, rfl⟩
  next target ht =>
    obtain ⟨⟨outcome, registry, random⟩, hs, h⟩ := bind_eq_ok.mp h
    have hg := Registry.grows_of_samplePair hs
    simp only at h hg
    split at h
    next =>
      cases h
      exact .quiet nofun nofun ⟨registry, random, hg, rfl⟩
    next outcome =>
      split at h
      next =>
        cases h
        exact .quiet nofun nofun ⟨registry, random, hg, rfl⟩
      next =>
        obtain ⟨⟨o', delta, c'⟩, hp, h⟩ := bind_eq_ok.mp h
        have he : b.Proposed
            (.new p (p + b.topology.offset d) d c.particle target.particle outcome) :=
          ⟨rfl, rfl, fun _ => ⟨c, hc, rfl⟩, ⟨target, ht, rfl⟩, _, _, _, _, .refl _, hs⟩
        cases h
        exact effect_of_propose he hg hp

theorem effect_of_step {b b' : Board R γ} {o : StepOutcome} (h : b.step = .ok (o, b')) :
    Effect b false o b' := by
  unfold step at h
  simp only at h
  generalize b.activity.sample b.random = drawn at h
  split at h
  next =>
    cases h
    exact .quiet nofun nofun ⟨b.registry, drawn.2, .refl _, rfl⟩
  next p _ =>
    split at h
    next =>
      cases h
      exact .quiet nofun nofun ⟨b.registry, drawn.2, .refl _, rfl⟩
    next c hc =>
      obtain ⟨⟨d, registry, random⟩, hd, h⟩ := bind_eq_ok.mp h
      have hg := Registry.grows_of_sampleDir hd
      simp only at h hg
      split at h
      next =>
        cases h
        exact .quiet nofun nofun ⟨registry, random, hg, rfl⟩
      next d _ =>
        have he : Effect { b with registry, random } false o b' := effect_of_attemptAt hc h
        exact he.of_grown hg

/-- A request of another board has the effect of an attempt whose source is not on this board. -/
theorem effect_of_evolveTarget {b b' : Board R γ} {m : EvolveRequest R} {state : String}
    {energy : R} (h : b.evolveTarget m = .ok (state, energy, b')) : ∃ o, Effect b true o b' := by
  have hquiet : ∀ (registry : Registry R) (random : γ), b.registry.Grows registry →
      ∃ o, Effect b true o { b with registry, random } := fun registry random hg =>
    ⟨.noChange, .quiet nofun nofun ⟨registry, random, hg, rfl⟩⟩
  unfold evolveTarget at h
  split at h
  next =>
    cases h
    exact hquiet b.registry b.random (.refl _)
  next target ht =>
    split at h
    next =>
      cases h
      exact hquiet b.registry b.random (.refl _)
    next =>
      simp only at h
      obtain ⟨⟨outcome, registry, random⟩, hs, h⟩ := bind_eq_ok.mp h
      have hknown := (Registry.enrolls_intern b.registry m.sourceState).grows
      have hg := hknown.trans (Registry.grows_of_samplePair hs)
      simp only at h hg
      split at h
      next =>
        cases h
        exact hquiet registry random hg
      next outcome =>
        split at h
        next =>
          cases h
          exact hquiet registry random hg
        next =>
          obtain ⟨⟨o, delta, c⟩, hp, h⟩ := bind_eq_ok.mp h
          have he : b.Proposed (.ofRemote (m.target - b.topology.offset m.dir) m.target m.dir
              (b.registry.intern m.sourceState).1 target.particle outcome) :=
            ⟨rfl, (Point.sub_add_cancel ..).symm, nofun, ⟨target, ht, rfl⟩, _, _, _, _, hknown, hs⟩
          have he := effect_of_propose he hg hp
          simp only at h
          split at h
          all_goals
            cases h
            exact ⟨_, he⟩

end ParticleAutomaton.Board
