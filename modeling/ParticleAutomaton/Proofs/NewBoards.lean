import ParticleAutomaton.Proofs.ActivityTrees
import ParticleAutomaton.Proofs.BoardLikeness
import ParticleAutomaton.Proofs.NameCounts
import ParticleAutomaton.Remote.MessageText
import ParticleAutomaton.Sampling.RandomSource

namespace ParticleAutomaton

/-- No source makes the rules fail. -/
def Rulebook.Total {R : Type} [Scalar R] (b : Rulebook R) : Prop :=
  ∀ name, ∃ s, SourceRules.ofName b name = .ok s

theorem Grid.particles_new (width height : Nat) (particle : ParticleId) :
    (Grid.new width height particle).particles = List.replicate (width * height) particle := by
  simp [Grid.new, Grid.particles, Cell.new]

namespace Registry

variable {R : Type}

/-- The registry after a number of cells came to hold a particle. -/
def addCounts (r : Registry R) (id : ParticleId) (ps : List Point) : Registry R :=
  ps.foldl (fun r _ => r.addCount id) r

theorem keeps_addCounts (r : Registry R) (id : ParticleId) (ps : List Point) :
    r.Keeps (r.addCounts id ps) := by
  induction ps generalizing r with
  | nil => exact .refl r
  | cons p ps ih => exact (keeps_addCount r id).trans (ih _)

variable [Scalar R]

theorem Sound.addCount {r : Registry R} (h : r.Sound) (id : ParticleId) : (r.addCount id).Sound :=
  h.recount id (· + 1)

theorem Sound.addCounts {r : Registry R} (h : r.Sound) {id : ParticleId} {name : String}
    (hn : r.name? id = some name) (ps : List Point) :
    (r.addCounts id ps).Sound ∧ ∀ other,
      (r.addCounts id ps).held other = r.held other + if other = id then ps.length else 0 := by
  induction ps generalizing r with
  | nil => exact ⟨h, fun other => by simp [Registry.addCounts]⟩
  | cons p ps ih =>
    obtain ⟨hs, hheld⟩ := ih (h.addCount id) (h.name?_of_keeps (keeps_addCount r id) hn)
    refine ⟨hs, fun other => ?_⟩
    refine (hheld other).trans ?_
    rw [held_addCount hn, List.length_cons]
    split <;> omega

theorem keeps_of_sources {r : Registry R} {id : ParticleId}
    {s : Option (SourceRules R) × Registry R} (h : r.sources id = .ok s) : r.Keeps s.2 := by
  unfold sources at h
  split at h
  next =>
    cases h
    exact .refl r
  next =>
    split at h
    next =>
      cases h
      exact .refl r
    next =>
      obtain ⟨s, hs, h⟩ := bind_eq_ok.mp h
      cases h
      exact keeps_modify id fun _ => rfl

theorem sources_ok {r : Registry R} (h : r.rules.Total) (id : ParticleId) :
    ∃ s, r.sources id = .ok s := by
  unfold sources
  split
  next => exact ⟨_, rfl⟩
  next p _ =>
    split
    next => exact ⟨_, rfl⟩
    next =>
      obtain ⟨s, hs⟩ := h p.name
      rw [hs]
      exact ⟨_, rfl⟩

end Registry

theorem Scene.Twins.refl {R : Type} [Scalar R] {x : Scene R} (hs : x.2.Sound) (hc : x.Counted)
    (hn : x.Named) : x.Twins x := by
  refine ⟨⟨hs, hs, rfl, rfl, rfl, rfl, fun {p c} h => ?_⟩, hc, hc⟩
  obtain ⟨name, hname⟩ := hn _ (Grid.particle_mem h)
  exact ⟨c, h, ⟨name, hname, hname⟩, rfl, rfl⟩

namespace Board

variable {R γ : Type} [Scalar R]

section

variable (config : BoardConfig) (rules : Rulebook R) (random : γ) (activity : ActivityTree R)

/-- The particle of all cells of a new board. -/
def filler : ParticleId × Registry R :=
  (Registry.new rules config.maxNameLen).intern config.emptyParticle

theorem keeps_still : (Registry.new rules config.maxNameLen).Keeps
    (still config rules random activity).registry :=
  ((Registry.sound_new rules config.maxNameLen).intern config.emptyParticle).2.1.toKeeps.trans
    (Registry.keeps_addCounts ..)

theorem name?_still :
    (still config rules random activity).registry.name? (filler config rules).1 =
      some (Text.truncate (max 1 config.maxNameLen) config.emptyParticle) := by
  obtain ⟨hs, -, hn⟩ := (Registry.sound_new rules config.maxNameLen).intern config.emptyParticle
  exact hs.name?_of_keeps (Registry.keeps_addCounts ..) hn

/-- A new board is the same by name as itself: its registry has the particle of all cells. -/
theorem alike_still :
    Alike (still config rules random activity) (still config rules random activity) := by
  obtain ⟨hs, he, hn⟩ := (Registry.sound_new rules config.maxNameLen).intern config.emptyParticle
  let grid := Grid.new config.width config.height (filler config rules).1
  obtain ⟨hsound, hheld⟩ := hs.addCounts hn grid.points
  have hcells : grid.particles =
      List.replicate (config.width * config.height) (filler config rules).1 :=
    Grid.particles_new ..
  have hlen : grid.points.length = config.width * config.height := Grid.length_pointsOf ..
  have hzero : ∀ id, (filler config rules).2.held id = 0 := fun id => he.held id
  have hcounted : (still config rules random activity).scene.Counted := by
    intro id
    have hsum : (still config rules random activity).registry.held id =
        (filler config rules).2.held id +
          if id = (filler config rules).1 then grid.points.length else 0 := hheld id
    change (still config rules random activity).registry.held id = grid.particles.count id
    rw [hsum, hzero, hcells, hlen, List.count_replicate, Nat.zero_add]
    simp only [beq_iff_eq, eq_comm (a := id)]
  have hnamed : (still config rules random activity).scene.Named := by
    intro id hid
    have hid : id ∈ grid.particles := hid
    rw [hcells] at hid
    rw [List.eq_of_mem_replicate hid]
    exact ⟨_, name?_still config rules random activity⟩
  exact ⟨.refl hsound hcounted hnamed, rfl, rfl, rfl, rfl, rfl⟩

end

theorem keeps_of_refreshRate {b b' : Board R γ} {p : Point} (h : b.refreshRate p = .ok b') :
    b.registry.Keeps b'.registry := by
  unfold refreshRate at h
  split at h
  next =>
    cases h
    exact .refl _
  next =>
    obtain ⟨⟨rate, registry⟩, hr, h⟩ := bind_eq_ok.mp h
    obtain ⟨s, hs, hr⟩ := bind_eq_ok.mp hr
    cases h
    cases hr
    exact Registry.keeps_of_sources hs

theorem keeps_of_refreshRates {b b' : Board R γ} {ps : List Point}
    (h : b.refreshRates ps = .ok b') : b.registry.Keeps b'.registry :=
  foldlM_relates (r := fun b b' : Board R γ => b.registry.Keeps b'.registry)
    (fun b => .refl b.registry) (fun h k => h.trans k) (fun _ _ _ _ => keeps_of_refreshRate) h

theorem keeps_new {config : BoardConfig} {rules : Rulebook R} {random : γ} {b : Board R γ}
    (h : new config rules random = .ok b) :
    (Registry.new rules config.maxNameLen).Keeps b.registry := by
  obtain ⟨-, -, activity, -, hb⟩ := new_eq_ok.mp h
  exact (keeps_still config rules random activity).trans (keeps_of_refreshRates hb)

/-- All cells of a new board hold the configured particle and were never written. -/
theorem cell_new {config : BoardConfig} {rules : Rulebook R} {random : γ} {b : Board R γ}
    (h : new config rules random = .ok b) {p : Point} (hp : b.grid.contains p = true) :
    ∃ particle, b.grid.get? p = some (.new particle) ∧
      b.registry.name? particle =
        some (Text.truncate (max 1 config.maxNameLen) config.emptyParticle) := by
  obtain ⟨-, -, activity, -, hb⟩ := new_eq_ok.mp h
  have ha := alike_still config rules random activity
  have hk := keeps_of_refreshRates hb
  have hn := name?_still config rules random activity
  obtain ⟨registry, activity', rfl⟩ := refreshRates_eq_ok hb
  obtain ⟨c, hc⟩ := Grid.get?_of_contains hp
  cases Grid.get?_new hc
  exact ⟨(filler config rules).1, hc, Registry.Sound.name?_of_keeps ha.twins.left hk hn⟩

theorem refreshRate_ok {b : Board R γ} (h : b.registry.rules.Total) (p : Point) :
    ∃ b', b.refreshRate p = .ok b' := by
  unfold refreshRate
  split
  next => exact ⟨b, rfl⟩
  next c _ =>
    obtain ⟨s, hs⟩ := Registry.sources_ok h c.particle
    simp only [Registry.activityRate, hs, ok_bind]
    exact ⟨_, rfl⟩

/-- Rules that fail for no source let all activities be worked out. -/
theorem refreshRates_ok {b : Board R γ} (h : b.registry.rules.Total) (ps : List Point) :
    ∃ b', b.refreshRates ps = .ok b' := by
  unfold refreshRates
  induction ps generalizing b with
  | nil => exact ⟨b, rfl⟩
  | cons p ps ih =>
    obtain ⟨c, hc⟩ := refreshRate_ok h p
    rw [foldlM_cons, hc]
    exact ih ((keeps_of_refreshRate hc).rules ▸ h)

theorem covering_ok (width height : Nat) :
    ∃ t : ActivityTree R, ActivityTree.covering width height = .ok t :=
  ⟨_, ActivityTree.covering_eq width height⟩

theorem new_ok {config : BoardConfig} {rules : Rulebook R} (random : γ)
    (hv : config.validate = .ok ()) (ht : rules.topology = config.topology)
    (hs : rules.Total) : ∃ b, new config rules random = .ok b := by
  obtain ⟨activity, ha⟩ := covering_ok (R := R) config.width config.height
  have hr : (still config rules random activity).registry.rules = rules :=
    (keeps_still config rules random activity).rules
  have ht' : (still config rules random activity).registry.rules.Total := by
    rw [hr]
    exact hs
  obtain ⟨b, hb⟩ := refreshRates_ok ht' (still config rules random activity).grid.points
  exact ⟨b, new_eq_ok.mpr ⟨hv, ht, activity, ha, hb⟩⟩

/-- Without rules no direction is ever tried. -/
theorem total_bare : (⟨.square4, [], [], [], []⟩ : Rulebook Float).Total := by
  intro name
  have hm : Rulebook.sourceMatches (⟨.square4, [], [], [], []⟩ : Rulebook Float) name =
      fun _ => [] :=
    funext fun d => by simp [Rulebook.sourceMatches, Rulebook.directedRules]
  rw [← isOk_iff, SourceRules.ofName, hm]
  decide +kernel

/-- A board of two cells without rules. -/
theorem pair_ok : ∃ b : Board Float RandomSource,
    new { width := 2, height := 1 } ⟨.square4, [], [], [], []⟩ (.ofMix 0) = .ok b :=
  new_ok _ rfl rfl total_bare

end Board

end ParticleAutomaton
