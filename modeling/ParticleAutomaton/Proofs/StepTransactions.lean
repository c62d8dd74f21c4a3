import ParticleAutomaton.Proofs.Requests

namespace ParticleAutomaton

namespace Registry

variable {R : Type} {r s : Registry R}

theorem Enlarged.held (h : r.Enlarged Particle.Learns s) (id : ParticleId) :
    s.held id = r.held id := by
  unfold Registry.held
  cases hp : r.get? id with
  | some p =>
    obtain ⟨q, hq, hpq⟩ := h.old hp
    rw [hq, Option.map_some, Option.map_some, hpq.count]
  | none =>
    cases hq : s.get? id with
    | none => rfl
    | some q => simp [h.new hp hq]

theorem count_eq_held (r : Registry R) (name : String) :
    r.count name = ((r.find? name).map r.held).getD 0 := by
  unfold Registry.count Registry.held
  cases r.find? name <;> rfl

variable [Scalar R]

/-- New particles are held by no cell, so no name has come to count for more. -/
theorem Enlarged.count (h : r.Enlarged Particle.Learns s) (hr : r.Sound) (hs : s.Sound)
    (name : String) : s.count name = r.count name := by
  rw [count_eq_held, count_eq_held]
  unfold find?
  rw [h.maxNameLen]
  generalize Text.truncate r.maxNameLen name = name
  cases hi : r.index[name]? with
  | some id => rw [h.index hi, Option.map_some, Option.map_some, h.held]
  | none =>
    cases hj : s.index[name]? with
    | none => rfl
    | some id =>
      rw [Option.map_some, h.held]
      show r.held id = 0
      unfold Registry.held
      cases hp : r.get? id with
      | none => rfl
      | some p =>
        obtain ⟨q, hq, hpq⟩ := h.old hp
        have hname : q.name = name :=
          Option.some.inj ((name?_of_get? hq).symm.trans (hs.index.mp hj))
        have hknown := hr.index.mpr (name?_of_get? hp)
        rw [← hpq.name, hname, hi] at hknown
        exact nomatch hknown

end Registry

namespace Board

variable {R γ : Type}

/-- An attempt has left a board as it was, but for drawn numbers, messages and what the registry
knows of the rules. -/
structure Spared (b c : Board R γ) : Prop where
  config : c.config = b.config
  grid : c.grid = b.grid
  activity : c.activity = b.activity
  remotes : c.remotes = b.remotes
  drawn : c.journal.drawn = b.journal.drawn
  notices : c.journal.notices = b.journal.notices
  registry : b.registry.Enlarged Particle.Learns c.registry
  count : ∀ name, c.count name = b.count name

/-- A bound change has been written to a board: to the particles and the writes of its ends, and to
the bonds of the cells of its plan. -/
structure Written (b : Board R γ) (e : UpdateEvent R) (c : Board R γ) : Prop where
  apart : e.source ≠ e.target
  source : b.grid.contains e.source = true
  target : b.grid.contains e.target = true
  cell : ∀ {p cell}, b.grid.get? p = some cell → ∃ cell', c.grid.get? p = some cell' ∧
    cell'.particle =
      (if p = e.target then e.newTarget else if p = e.source then e.newSource
        else cell.particle) ∧
    cell'.writes = (if p = e.source ∨ p = e.target then cell.writes + 1 else cell.writes) ∧
    cell'.bonds = (e.plan.get? p).getD cell.bonds
  contains : ∀ p, c.grid.contains p = b.grid.contains p
  sent : c.journal.sent = b.journal.sent

variable [Scalar R]

theorem spared_of_grows {b : Board R γ} (hb : b.registry.Sound) {registry : Registry R}
    (hr : registry.Sound) (hg : b.registry.Grows registry) (random : γ) {journal : Journal R}
    (hd : journal.drawn = b.journal.drawn) (hn : journal.notices = b.journal.notices) :
    b.Spared { b with registry, random, journal } :=
  ⟨rfl, rfl, rfl, rfl, hd, hn, hg hb.arena, (hg hb.arena).count hb hr⟩

variable [Generator R γ]

theorem Proposed.written {b c : Board R γ} {e e' : UpdateEvent R} (he : b.Proposed e)
    (hr : e.remote = false) (hb : e.bind b.grid = .ok (true, e')) {registry : Registry R}
    {random : γ} (hc : commit { b with registry, random } e' = .ok c) : b.Written e' c := by
  have hw := (he.planned hb).wellFormed
  have ha := he.apart hb
  have hin : b.grid.contains e'.source = true ∧ b.grid.contains e'.target = true ∧
      e'.remote = false := by
    obtain ⟨source, hs, -⟩ := he.source hr
    obtain ⟨target, ht, -⟩ := he.target
    obtain ⟨labels, plan, rfl, -⟩ := UpdateEvent.bind_eq_ok hb
    exact ⟨Grid.contains_of_get? hs, Grid.contains_of_get? ht, hr⟩
  obtain ⟨hs, ht, hr⟩ := hin
  obtain ⟨registry', activity, journal, rfl, hsent⟩ := commit_eq_ok hc
  refine ⟨ha, hs, ht, fun {p cell} hcell => ?_, e'.contains_applied b.grid, hsent⟩
  obtain ⟨cell', hcell', hparticle, hwrites, hbonds⟩ := UpdateEvent.get?_applied ha hw hcell
  have hends : p ∈ e'.ends ↔ p = e'.source ∨ p = e'.target := by simp [UpdateEvent.ends, hr]
  refine ⟨cell', hcell', ?_, ?_, hbonds⟩
  · rw [hparticle]
    by_cases hp : p = e'.target
    · simp [hp]
    · simp [hends, hp]
  · rw [hwrites]
    simp [hends]

variable [MessageReader R]

/-- A step is all or nothing, whatever numbers are drawn. -/
theorem step_all_or_nothing {b : Board R γ} (h : b.Reachable) (random : γ) {o : StepOutcome}
    {c : Board R γ} (hs : step { b with random } = .ok (o, c)) :
    (o ≠ .accepted → b.Spared c) ∧
    (o ≠ .accepted → o ≠ .remoteRequested → c.journal.sent = b.journal.sent) ∧
    (o = .remoteRequested → ∃ p d cell q, b.remotes.lookup (p + b.topology.offset d) = some cell ∧
      q.source = p ∧ c.journal.sent = b.journal.sent.push (cell.address, .evolve q)) ∧
    (o = .accepted → ∃ e e' : UpdateEvent R, b.Proposed e ∧ e.remote = false ∧
      e.bind b.grid = .ok (true, e') ∧ b.Written e' c) := by
  have hb := h.alike.sound
  have hc := (Moves.alike (.step hs) (h.alike.reseed random)).sound
  have heffect : b.Effect false o c := (effect_of_step hs).of_grown (.refl b.registry)
  cases heffect with
  | quiet ha hr h =>
    obtain ⟨registry, random', hg, rfl⟩ := h
    exact ⟨fun _ => spared_of_grows hb hc hg random' rfl rfl, fun _ _ => rfl,
      fun ho => absurd ho hr, fun ho => absurd ho ha⟩
  | request ho h =>
    obtain ⟨registry, random', p, cell, d, remote, hg, hp, hremote, rfl⟩ := h
    obtain ⟨registry', q, hg', hq, -, -, hr⟩ :=
      requestRemote_eq (b := { b with registry, random := random' }) hp d remote
    -- The registry grows twice: as a direction is drawn, and as the bonds of the cell are weighed.
    rw [hr] at hc ⊢
    refine ⟨fun _ => spared_of_grows hb hc (hg.trans hg') random' (Journal.drawn_send ..)
      (Journal.notices_send ..), fun _ hne => absurd ho hne,
      fun _ => ⟨p, d, remote, q, hremote, hq, Journal.sent_send ..⟩, fun ha => ?_⟩
    rw [ho] at ha
    exact nomatch ha
  | change ho e e' hp hr hbound h =>
    obtain ⟨registry, random', -, h⟩ := h
    refine ⟨fun ha => absurd ho ha, fun ha => absurd ho ha, fun ha => ?_,
      fun _ => ⟨e, e', hp, hr, hbound, hp.written hr hbound h⟩⟩
    rw [ho] at ha
    exact nomatch ha

/-- A board of one cell that asks another board. -/
theorem step_all_or_nothing_of_request :
    ∃ (b c : Board Float RandomSource) (random : RandomSource), b.Reachable ∧
      step { b with random } = .ok (.remoteRequested, c) ∧ b.Spared c ∧
      ∃ p d cell q, b.remotes.lookup (p + b.topology.offset d) = some cell ∧ q.source = p ∧
        c.journal.sent = b.journal.sent.push (cell.address, .evolve q) := by
  let records : RuleRecords Float :=
    ⟨[], [{ dir := some "n", source := some "_", target := some "_" }], []⟩
  have hread : ((Rulebook.ofRecords? .square4 records).toOption.any fun rules =>
      ((rules.activity "_").toOption.any fun rate => decide (¬ rate ≤ 0)) &&
        (SourceRules.ofName rules "_").toOption.any fun s =>
          (s.rates.sample (RandomSource.ofMix 0)).1.isSome) = true := by
    decide +kernel
  obtain ⟨rules, hrules, h⟩ := any_toOption.mp hread
  obtain ⟨hactive, hdrawn⟩ := Bool.and_eq_true_iff.mp h
  obtain ⟨rate, hrate, hactive⟩ := any_toOption.mp hactive
  obtain ⟨s, hs, hdrawn⟩ := any_toOption.mp hdrawn
  obtain ⟨d, hd⟩ := Option.isSome_iff_exists.mp hdrawn
  obtain ⟨b, c, hr, -, -, hstep⟩ := lone_requests (Rulebook.total_of_ofRecords hrules) hrate
    (of_decide_eq_true hactive) hs (Prod.ext hd rfl)
  obtain ⟨hspared, -, hsent, -⟩ := step_all_or_nothing hr _ hstep
  exact ⟨b, c, _, hr, hstep, hspared (by decide), hsent rfl⟩

end Board

end ParticleAutomaton
