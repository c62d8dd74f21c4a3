import ParticleAutomaton.Proofs.RateMemory
import ParticleAutomaton.Proofs.Views

namespace ParticleAutomaton

theorem ActivityTree.place?_congr {R : Type} {t u : ActivityTree R} (h : u.size = t.size)
    (p : Point) : u.place? p = t.place? p := by
  unfold place?
  rw [h]

theorem ActivityTree.Covers.place? {R : Type} {t : ActivityTree R} {g : Grid}
    (h : t.Covers g.width g.height) {p : Point} (hp : g.contains p = true) :
    (t.place? p).isSome = true := by
  have hin := Grid.contains_iff.mp hp
  have hw := h.width
  have hh := h.height
  unfold ActivityTree.place?
  rw [if_pos (by omega)]
  rfl

namespace UpdateEvent

variable {R : Type}

/-- A write tells its place, if that is on the grid, and all places that were told before. -/
theorem tells_of_write {s t : List Point × Grid × Registry R} {p : Point} {old new : ParticleId}
    (h : write s p old new = .ok t) :
    s.2.2.Retains t.2.2 ∧ (∀ q ∈ s.1, q ∈ t.1) ∧ (s.2.1.contains p = true → p ∈ t.1) := by
  obtain ⟨touched, x⟩ := s
  rw [write_eq] at h
  split at h
  next =>
    obtain ⟨r, hr, rfl⟩ := map_eq_ok.mp h
    exact ⟨Registry.retains_of_exchange hr, fun q hq => List.mem_append_left _ hq,
      fun _ => List.mem_append_right _ (List.mem_singleton.mpr rfl)⟩
  next hout =>
    cases h
    exact ⟨.refl _, fun q hq => hq, fun hin => absurd hin hout⟩

/-- A change tells what was told before and all places of its plan. -/
theorem mem_touchPlan {e : UpdateEvent R} {touched : List Point} {p : Point} :
    p ∈ e.touchPlan touched ↔ p ∈ touched ∨ p ∈ e.plan.edits.map Prod.fst := by
  unfold touchPlan
  generalize e.plan.edits = edits
  induction edits generalizing touched with
  | nil => simp
  | cons edit edits ih =>
    rw [List.foldl_cons, ih, List.map_cons, List.mem_cons]
    grind

/-- A change tells those of its ends that are on the grid. -/
theorem tells_of_commit {e : UpdateEvent R} {g g' : Grid} {r r' : Registry R}
    {touched : List Point} (h : e.commit g r = .ok (touched, g', r')) :
    r.Retains r' ∧ ∀ p ∈ e.ends, g.contains p = true → p ∈ touched := by
  rw [commit_eq] at h
  obtain ⟨s, hs, h⟩ := ParticleAutomaton.bind_eq_ok.mp h
  obtain ⟨t, ht, h⟩ := ParticleAutomaton.bind_eq_ok.mp h
  have hsource : r.Retains s.2.2 ∧ (∀ p, s.2.1.contains p = g.contains p) ∧
      (e.remote = false → g.contains e.source = true → e.source ∈ s.1) := by
    unfold writeSource at hs
    split at hs
    next hr =>
      cases hs
      exact ⟨.refl r, fun _ => rfl, fun hn => by simp [hr] at hn⟩
    next =>
      obtain ⟨hr, -, hin⟩ := tells_of_write hs
      refine ⟨hr, fun p => ?_, fun _ => hin⟩
      rw [write_eq_ok hs]
      exact Grid.contains_put ..
  obtain ⟨hr, hkeep, hin⟩ := tells_of_write ht
  cases h
  refine ⟨hsource.1.trans hr, fun p hp hg => mem_touchPlan.mpr (Or.inl ?_)⟩
  unfold ends at hp
  split at hp
  next =>
    obtain rfl := List.mem_singleton.mp hp
    exact hin ((hsource.2.1 _).trans hg)
  next hremote =>
    rcases List.mem_cons.mp hp with rfl | hp
    · exact hkeep _ (hsource.2.2 (by simpa using hremote) hg)
    · obtain rfl := List.mem_singleton.mp hp
      exact hin ((hsource.2.1 _).trans hg)

end UpdateEvent

namespace Board

variable {R γ : Type} [Scalar R]

/-- All cells have a place in the square of activities. -/
def Covered (b : Board R γ) : Prop :=
  ∀ p, b.grid.contains p = true → (b.activity.place? p).isSome = true

/-- The activities of some places have been set to what the particles of their cells remember. -/
structure Refreshed (b : Board R γ) (ps : List Point) (c : Board R γ) : Prop where
  config : c.config = b.config
  grid : c.grid = b.grid
  activity : b.activity.LeadsTo c.activity
  size : c.activity.size = b.activity.size
  retains : b.registry.Retains c.registry
  rates : ∀ {id rate}, b.registry.Rates id rate → c.registry.Rates id rate
  rate : ∀ {p}, p ∉ ps ∨ b.grid.contains p = false → c.activity.rate p = b.activity.rate p
  fresh : ∀ {p cell}, p ∈ ps → b.grid.get? p = some cell →
    ∃ rate, c.registry.Rates cell.particle rate ∧ c.activity.rate p = Scalar.atLeast 0 rate

theorem Refreshed.refl (b : Board R γ) : b.Refreshed [] b :=
  ⟨rfl, rfl, .refl _, rfl, .refl _, id, fun _ => rfl, nofun⟩

theorem Refreshed.covered {b c : Board R γ} {ps : List Point} (h : b.Refreshed ps c)
    (hb : b.Covered) : c.Covered := by
  intro p hp
  rw [ActivityTree.place?_congr h.size]
  exact hb p (h.grid ▸ hp)

theorem Refreshed.trans {b c d : Board R γ} {ps qs : List Point} (h : b.Refreshed ps c)
    (k : c.Refreshed qs d) : b.Refreshed (ps ++ qs) d := by
  refine ⟨k.config.trans h.config, k.grid.trans h.grid, h.activity.trans k.activity,
    k.size.trans h.size, h.retains.trans k.retains, fun hr => k.rates (h.rates hr),
    fun {p} hp => ?_, fun {p cell} hp hcell => ?_⟩
  · rw [List.mem_append, not_or] at hp
    have hk := k.rate (hp.imp And.right fun ho => h.grid ▸ ho)
    exact hk.trans (h.rate (hp.imp_left And.left))
  · by_cases hq : p ∈ qs
    · exact k.fresh hq (h.grid ▸ hcell)
    · obtain ⟨rate, hr, he⟩ := h.fresh ((List.mem_append.mp hp).resolve_right hq) hcell
      exact ⟨rate, k.rates hr, (k.rate (Or.inl hq)).trans he⟩

theorem refreshed_of_refreshRate {b c : Board R γ} (hb : b.Covered) {p : Point}
    (h : b.refreshRate p = .ok c) : b.Refreshed [p] c := by
  unfold refreshRate at h
  split at h
  next hn =>
    cases h
    refine ⟨rfl, rfl, .refl _, rfl, .refl _, id, fun _ => rfl, fun hp hcell => ?_⟩
    rw [List.mem_singleton.mp hp, hn] at hcell
    exact nomatch hcell
  next cell hcell =>
    have hin := Grid.contains_of_get? hcell
    have hplace := hb p hin
    obtain ⟨⟨rate, registry⟩, hr, h⟩ := bind_eq_ok.mp h
    obtain ⟨s, hs, -⟩ := bind_eq_ok.mp hr
    have hrates : registry.Rates cell.particle rate := Registry.rates_of_activityRate hr
    obtain rfl : registry = s.2 := by
      unfold Registry.activityRate at hr
      rw [hs] at hr
      cases hr
      rfl
    have hc : { b with registry := s.2, activity := (b.activity.update p rate).2 } = c :=
      Except.ok.inj h
    have hupdate := b.activity.rate_update p
    subst hc
    refine ⟨rfl, rfl, ActivityTree.leadsTo_update .., ActivityTree.size_update ..,
      Registry.retains_of_sources hs, Registry.Rates.of_sources hs, fun {q} hq => ?_,
      fun {q cell'} hq hcell' => ?_⟩
    · refine (hupdate q rate).trans (if_neg ?_)
      rintro ⟨rfl, -⟩
      simp [hin] at hq
    · obtain rfl := List.mem_singleton.mp hq
      cases hcell.symm.trans hcell'
      exact ⟨rate, hrates, (hupdate q rate).trans (if_pos ⟨rfl, hplace⟩)⟩

theorem refreshed_of_refreshRates {b c : Board R γ} (hb : b.Covered) {ps : List Point}
    (h : b.refreshRates ps = .ok c) : b.Refreshed ps c := by
  induction ps generalizing b with
  | nil =>
    cases h
    exact .refl _
  | cons p ps ih =>
    rw [refreshRates, foldlM_cons] at h
    obtain ⟨d, hd, h⟩ := bind_eq_ok.mp h
    have hp := refreshed_of_refreshRate hb hd
    exact hp.trans (ih (hp.covered hb) h)

/-- The particles of some places may have changed, and then their activities have been set anew. -/
structure Resettled (b : Board R γ) (ps : List Point) (c : Board R γ) : Prop where
  config : c.config = b.config
  activity : b.activity.LeadsTo c.activity
  size : c.activity.size = b.activity.size
  retains : b.registry.Retains c.registry
  particle : ∀ {p cell}, p ∉ ps → b.grid.get? p = some cell →
    ∃ cell', c.grid.get? p = some cell' ∧ cell'.particle = cell.particle
  rate : ∀ {p}, p ∉ ps ∨ c.grid.contains p = false → c.activity.rate p = b.activity.rate p
  fresh : ∀ {p cell}, p ∈ ps → c.grid.get? p = some cell →
    ∃ rate, c.registry.Rates cell.particle rate ∧ c.activity.rate p = Scalar.atLeast 0 rate

/-- Nothing has changed but bonds and what the registry knows. -/
theorem resettled_nil {b c : Board R γ} (hc : c.config = b.config)
    (hg : Grid.SameStates b.grid c.grid) (ha : c.activity = b.activity)
    (hr : b.registry.Retains c.registry) : b.Resettled [] c := by
  refine ⟨hc, ha ▸ .refl _, congrArg ActivityTree.size ha, hr, fun _ hcell => ?_, fun _ => ?_, nofun⟩
  · obtain ⟨cell', hcell', hp, -⟩ := hg.get? hcell
    exact ⟨cell', hcell', hp⟩
  · rw [ha]

/-- A new grid and a new registry, with the activities set anew where particles differ. -/
theorem Refreshed.resettled {b c : Board R γ} {grid : Grid} {registry : Registry R}
    {ps : List Point} (hr : b.registry.Retains registry)
    (hp : ∀ {p cell}, p ∉ ps → b.grid.get? p = some cell →
      ∃ cell', grid.get? p = some cell' ∧ cell'.particle = cell.particle)
    (h : Refreshed { b with grid, registry } ps c) : b.Resettled ps c := by
  have hg : c.grid = grid := h.grid
  refine ⟨h.config, h.activity, h.size, hr.trans h.retains, fun hq hcell => ?_, fun hq => ?_,
    fun hq hcell => ?_⟩
  · rw [hg]
    exact hp hq hcell
  · exact h.rate (hq.imp_right fun ho => hg ▸ ho)
  · exact h.fresh hq (hg ▸ hcell)

theorem Resettled.of_retains {b c : Board R γ} {registry : Registry R} {random : γ}
    {ps : List Point} (hr : b.registry.Retains registry)
    (h : Resettled { b with registry, random } ps c) : b.Resettled ps c :=
  ⟨h.config, h.activity, h.size, hr.trans h.retains, h.particle, h.rate, h.fresh⟩

theorem Resettled.show {b c : Board R γ} {ps : List Point} (h : b.Resettled ps c)
    (journal : Journal R) : b.Resettled ps { c with journal } :=
  ⟨h.config, h.activity, h.size, h.retains, h.particle, h.rate, h.fresh⟩

theorem resettled_of_write {b c : Board R γ} (hb : b.Covered) {p : Point} {particle : ParticleId}
    {touched : List Point} (h : b.write p particle = .ok (touched, c)) : ∃ ps, b.Resettled ps c := by
  cases hcell : b.grid.get? p with
  | none =>
    rw [write_of_none hcell] at h
    cases h
    exact ⟨[], resettled_nil rfl (.refl _) rfl (.refl _)⟩
  | some cell =>
    rw [write_of_some hcell] at h
    obtain ⟨registry, hr, h⟩ := bind_eq_ok.mp h
    obtain ⟨d, hd, h⟩ := bind_eq_ok.mp h
    cases h
    have hsame := Grid.sameStates_removeBonds b.grid p
    have hnew : Covered { b with grid := overwritten b.grid p particle, registry } := by
      intro q hq
      have hq : (overwritten b.grid p particle).contains q = true := hq
      rw [overwritten, Grid.contains_put, hsame.contains] at hq
      exact hb q hq
    refine ⟨[p], (refreshed_of_refreshRate hnew hd).resettled (Registry.retains_of_exchange hr)
      fun {q cell} hq hcell => ?_⟩
    obtain ⟨cell', hcell', hp, -⟩ := hsame.get? hcell
    refine ⟨cell', ?_, hp⟩
    rw [overwritten, Grid.get?_put, if_neg fun he => hq (List.mem_singleton.mpr he), hcell']

theorem resettled_of_commit {b c : Board R γ} (hb : b.Covered) {e : UpdateEvent R}
    (ha : e.source ≠ e.target) (hw : e.plan.WellFormed b.grid) (h : b.commit e = .ok c) :
    ∃ ps, b.Resettled ps c := by
  obtain ⟨touched, grid, registry, d, journal, hc, hd, rfl, -⟩ := commit_cases h
  obtain ⟨hr, htold⟩ := UpdateEvent.tells_of_commit hc
  obtain rfl := UpdateEvent.commit_eq_ok hc
  have hnew : Covered { b with grid := e.applied b.grid, registry } :=
    fun p hp => hb p ((e.contains_applied b.grid p).symm.trans hp)
  have hset : b.Resettled touched d := by
    refine (refreshed_of_refreshRates hnew hd).resettled hr fun {p cell} hp hcell => ?_
    have hend : p ∉ e.ends := fun he => hp (htold p he (Grid.contains_of_get? hcell))
    obtain ⟨cell', hcell', hparticle, -⟩ := UpdateEvent.get?_applied ha hw hcell
    refine ⟨cell', hcell', hparticle.trans ?_⟩
    rw [if_neg, if_neg hend]
    rintro rfl
    refine hend ?_
    unfold UpdateEvent.ends
    split <;> simp
  exact ⟨touched, hset.show _⟩

theorem Resettled.of_intern {b c : Board R γ} (hs : b.registry.Sound) {name : String}
    {ps : List Point} (h : Resettled { b with registry := (b.registry.intern name).2 } ps c) :
    b.Resettled ps c :=
  h.of_retains ((Registry.enrolls_intern b.registry name).grows.retains hs.arena)

theorem resettled_of_set {b c : Board R γ} (hs : b.registry.Sound) (hb : b.Covered) {p : Point}
    {name : String} {done : Bool} (h : b.set p name = .ok (done, c)) : ∃ ps, b.Resettled ps c := by
  rcases set_cases h with rfl | ⟨touched, d, hd, rfl⟩
  · exact ⟨[], resettled_nil rfl (.refl _) rfl (.refl _)⟩
  · obtain ⟨ps, hps⟩ :=
      resettled_of_write (b := { b with registry := (b.registry.intern name).2 }) hb hd
    exact ⟨ps, (hps.of_intern hs).show _⟩

theorem resettled_of_applyReply {b c : Board R γ} (hs : b.registry.Sound) (hb : b.Covered)
    {m : EvolveReply R} (h : b.applyReply m = .ok c) : ∃ ps, b.Resettled ps c := by
  rcases applyReply_cases h with rfl | rfl | ⟨touched, d, hd, rfl⟩
  · exact ⟨[], resettled_nil rfl (.refl _) rfl (.refl _)⟩
  · exact ⟨[], Resettled.of_intern hs (resettled_nil rfl (.refl _) rfl (.refl _))⟩
  · obtain ⟨ps, hps⟩ :=
      resettled_of_write (b := { b with registry := (b.registry.intern m.newState).2 }) hb hd
    exact ⟨ps, (hps.of_intern hs).show _⟩

theorem resettled_of_restore {b c : Board R γ} (ha : b.Alike b) (hb : b.Covered) {s : Snapshot}
    {r : Except SnapshotError Unit} (h : b.restore s = .ok (r, c)) : ∃ ps, b.Resettled ps c := by
  have hstage : b.registry.Retains (b.stage s.cells).2 := by
    have he := (alike_stage ha s.cells).2.1
    exact ⟨he.rules, he.maxNameLen, ha.sound.name?_of_keeps he.toKeeps⟩
  have hstaged := ages_stage b s.cells
  rcases restore_cases h with rfl | rfl | ⟨-, registry, d, hr, hd, rfl⟩
  · exact ⟨[], resettled_nil rfl (.refl _) rfl (.refl _)⟩
  · exact ⟨[], resettled_nil rfl (.refl _) rfl hstage⟩
  · have hcounted : (b.stage s.cells).2.Retains registry :=
      foldlM_relates (r := Registry.Retains) .refl Registry.Retains.trans
        (fun _ _ _ _ hex => Registry.retains_of_exchange hex) hr
    have hnew : Covered { b with grid := (b.stage s.cells).1, registry } :=
      fun p hp => hb p ((hstaged.contains p).symm.trans hp)
    have hset : b.Resettled (b.stage s.cells).1.points d := by
      refine (refreshed_of_refreshRates hnew hd).resettled (hstage.trans hcounted)
        fun {p cell} hp hcell => absurd (Grid.mem_points.mpr ?_) hp
      rw [hstaged.contains]
      exact Grid.contains_of_get? hcell
    exact ⟨_, hset.show _⟩

/-- What a board is made with and never loses. Its activities are a square without activity that
updates have changed. -/
structure WellFormed (b : Board R γ) : Prop where
  covered : b.Covered
  activity : ∃ start, ActivityTree.covering b.config.width b.config.height = .ok start ∧
    start.LeadsTo b.activity
  maxNameLen : b.registry.maxNameLen = max 1 b.config.maxNameLen

theorem WellFormed.reseed {b : Board R γ} (h : b.WellFormed) (random : γ) :
    WellFormed { b with random } := ⟨h.covered, h.activity, h.maxNameLen⟩

theorem wellFormed_new {config : BoardConfig} {rules : Rulebook R} {random : γ} {b : Board R γ}
    (h : new config rules random = .ok b) : b.WellFormed := by
  have hk := keeps_new h
  obtain ⟨-, -, activity, hcovering, h⟩ := new_eq_ok.mp h
  have hcovers := (ActivityTree.covers_covering hcovering).1
  have hstill : (still config rules random activity).Covered := fun p hp => hcovers.place? hp
  have hnew := refreshed_of_refreshRates hstill h
  refine ⟨hnew.covered hstill, ⟨activity, ?_, hnew.activity⟩, ?_⟩
  · rw [hnew.config]
    exact hcovering
  · rw [hk.maxNameLen, hnew.config]
    rfl

variable [Generator R γ]

theorem Effect.resettled {b c : Board R γ} {remote : Bool} {o : StepOutcome}
    (hs : b.registry.Sound) (hb : b.Covered) (h : Effect b remote o c) :
    ∃ ps, b.Resettled ps c := by
  cases h with
  | quiet ha hr h =>
    obtain ⟨registry, random, hg, rfl⟩ := h
    exact ⟨[], resettled_nil rfl (.refl _) rfl (hg.retains hs.arena)⟩
  | request ho h =>
    obtain ⟨registry, random, p, cell, d, remote, hg, hp, -, rfl⟩ := h
    obtain ⟨registry', q, hg', -, -, -, hr⟩ :=
      requestRemote_eq (b := { b with registry, random }) hp d remote
    rw [hr]
    exact ⟨[], resettled_nil rfl (.refl _) rfl ((hg.trans hg').retains hs.arena)⟩
  | change ho e e' hp hr hbound h =>
    obtain ⟨registry, random, hg, h⟩ := h
    have hw := (hp.planned hbound).wellFormed
    obtain ⟨ps, hps⟩ :=
      resettled_of_commit (b := { b with registry, random }) hb (hp.apart hbound) hw h
    exact ⟨ps, hps.of_retains (hg.retains hs.arena)⟩

/-- A flush apart, every move sets the activities of changed places anew. -/
theorem Moves.resettled {b c : Board R γ} (ha : b.Alike b) (hb : b.Covered) (h : b.Moves c) :
    c = b.flush.2 ∨ ∃ ps, b.Resettled ps c := by
  have hs := ha.sound
  cases h with
  | set h => exact Or.inr (resettled_of_set hs hb h)
  | addBond bond =>
    refine Or.inr ⟨[], ?_⟩
    rw [addBond_eq]
    split
    · exact resettled_nil rfl (.refl _) rfl (.refl _)
    · exact resettled_nil rfl (Grid.sameStates_link ..) rfl (.refl _)
  | removeBonds p =>
    exact Or.inr ⟨[], resettled_nil rfl (Grid.sameStates_removeBonds ..) rfl (.refl _)⟩
  | connect p cell =>
    refine Or.inr ⟨[], ?_⟩
    unfold Board.connect
    split
    · exact resettled_nil rfl (.refl _) rfl (.refl _)
    · exact resettled_nil rfl (.refl _) rfl (.refl _)
  | draw random => exact Or.inr ⟨[], resettled_nil rfl (.refl _) rfl (.refl _)⟩
  | step h => exact Or.inr ((effect_of_step h).resettled hs hb)
  | @handle m c h =>
    cases m with
    | evolve m =>
      obtain ⟨⟨state, energy, d⟩, hd, h⟩ := bind_eq_ok.mp h
      obtain ⟨o, he⟩ := effect_of_evolveTarget hd
      obtain ⟨ps, hps⟩ := he.resettled hs hb
      cases h
      exact Or.inr ⟨ps, hps.show _⟩
    | reply m => exact Or.inr (resettled_of_applyReply hs hb h)
  | restore h => exact Or.inr (resettled_of_restore ha hb h)
  | flush => exact Or.inl rfl

theorem Moves.wellFormed {b c : Board R γ} (hm : b.Moves c) (ha : b.Alike b) (h : b.WellFormed) :
    c.WellFormed := by
  rcases hm.resettled ha h.covered with rfl | ⟨ps, hps⟩
  · exact ⟨h.covered, h.activity, h.maxNameLen⟩
  · refine ⟨fun p hp => ?_, ?_, ?_⟩
    · rw [ActivityTree.place?_congr hps.size]
      exact h.covered p ((hm.leadsTo.ages.contains p).symm.trans hp)
    · obtain ⟨start, hstart, hleads⟩ := h.activity
      rw [hps.config]
      exact ⟨start, hstart, hleads.trans hps.activity⟩
    · rw [hps.retains.maxNameLen, hps.config]
      exact h.maxNameLen

variable [MessageReader R]

theorem Reachable.wellFormed {b : Board R γ} (h : b.Reachable) : b.WellFormed :=
  h.invariant wellFormed_new fun ha hm => hm.wellFormed ha

end Board

end ParticleAutomaton
