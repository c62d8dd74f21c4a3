import ParticleAutomaton.Proofs.BoardLikeness

namespace ParticleAutomaton

theorem Topology.offset_ne_zero (t : Topology) (d : Direction) :
    (t.offset d).x ≠ 0 ∨ (t.offset d).y ≠ 0 := by
  have hall : ∀ n ∈ t.neighbors, n.2.x ≠ 0 ∨ n.2.y ≠ 0 := by cases t <;> decide
  exact hall _ (List.get_mem ..)

theorem Topology.add_offset_ne (t : Topology) (d : Direction) (p : Point) : p ≠ p + t.offset d := by
  intro he
  rw [Point.eq_iff, Point.add_x, Point.add_y] at he
  have hz := t.offset_ne_zero d
  omega

theorem Board.Proposed.apart {R γ : Type} [Scalar R] [Generator R γ] {b : Board R γ}
    {e e' : UpdateEvent R} {bound : Bool} (h : b.Proposed e)
    (hb : e.bind b.grid = .ok (bound, e')) : e'.source ≠ e'.target := by
  have hne : e.source ≠ e.target := h.neighbors ▸ b.topology.add_offset_ne e.dir e.source
  obtain ⟨labels, plan, rfl, -⟩ := UpdateEvent.bind_eq_ok hb
  exact hne

namespace UpdateEvent

variable {R : Type}

theorem Alike.learned [Scalar R] {x y : Scene R} {r s : Registry R} {e f : UpdateEvent R}
    (h : Alike x.2 y.2 e f) (a : x.Alike y) (l : x.Learned y r s) : Alike r s e f :=
  ⟨h.source, h.target, h.dir, h.oldSource.learned a l, h.oldTarget.learned a l,
    ⟨h.outcome.newSource.learned a l, h.outcome.newTarget.learned a l, h.outcome.verb,
      h.outcome.rule⟩, h.remote, h.bound, h.labels, h.plan⟩

end UpdateEvent

namespace Board.Alike

variable {R γ : Type} [Scalar R]

section

variable {b c : Board R γ} (h : b.Alike c)

include h

theorem namesakes {r s : Registry R} (l : b.scene.Learned c.scene r s) {i j : ParticleId}
    (hij : b.registry.Namesakes c.registry i j) : r.Namesakes s i j :=
  hij.learned h.twins.toAlike l

theorem announce (n : VerbNotice) : Alike { b with journal := b.journal.announce n }
    { c with journal := c.journal.announce n } :=
  ⟨h.twins, h.config, h.activity, h.remotes, h.random, congrArg (·.announce n) h.journal⟩

theorem send (address : String) (m : Message R) :
    Alike { b with journal := b.journal.send address m }
      { c with journal := c.journal.send address m } :=
  ⟨h.twins, h.config, h.activity, h.remotes, h.random, congrArg (·.send address m) h.journal⟩

theorem reseed (random : γ) : Alike { b with random } { c with random } :=
  ⟨h.twins, h.config, h.activity, h.remotes, rfl, h.journal⟩

theorem commit {e f : UpdateEvent R} (ev : UpdateEvent.Alike b.registry c.registry e f)
    (he : e.Meets b.grid) (hf : f.Meets c.grid) : Agree Alike (b.commit e) (c.commit f) := by
  obtain ⟨s, t, hs, ht, w⟩ := ev.commit h.twins he hf
  have hnotice : (⟨f.source, f.target, c.registry.name f.oldSource, c.registry.name f.oldTarget,
      c.registry.name f.newSource, c.registry.name f.newTarget, f.outcome.verb⟩ : VerbNotice) =
      ⟨e.source, e.target, b.registry.name e.oldSource, b.registry.name e.oldTarget,
        b.registry.name e.newSource, b.registry.name e.newTarget, e.outcome.verb⟩ := by
    have hns : c.registry.name f.newSource = b.registry.name e.newSource :=
      ev.outcome.newSource.name
    have hnt : c.registry.name f.newTarget = b.registry.name e.newTarget :=
      ev.outcome.newTarget.name
    rw [ev.source, ev.target, ev.oldSource.name, ev.oldTarget.name, hns, hnt, ev.outcome.verb]
  have hs : e.commit b.grid b.registry = .ok s := hs
  have ht : f.commit c.grid c.registry = .ok t := ht
  have hwritten : Alike { b with grid := s.2.1, registry := s.2.2 }
      { c with grid := t.2.1, registry := t.2.2 } :=
    ⟨w.twins, h.config, h.activity, h.remotes, h.random, h.journal⟩
  unfold Board.commit
  simp only [hnotice]
  rw [hs, ht, ok_bind, ok_bind, w.touched, ev.outcome.verb]
  refine (hwritten.refreshRates s.1).bind fun b' c' hbc => .ok ?_
  split
  · exact hbc.drawAll s.1
  · exact (hbc.drawAll s.1).announce _

theorem addBondEnergy {s t : R × Registry R} (w : b.scene.Weighed c.scene s t) (bond : Bond) :
    b.scene.Weighed c.scene (Board.addBondEnergy b.grid s bond)
      (Board.addBondEnergy c.grid t bond) := by
  unfold Board.addBondEnergy
  cases ho : b.grid.get? bond.origin with
  | none =>
    rw [h.get?_none ho]
    exact w
  | some origin =>
    obtain ⟨origin', ho', hao⟩ := h.get?_some ho
    rw [ho']
    cases hd : b.grid.get? bond.destination with
    | none =>
      rw [h.get?_none hd]
      exact w
    | some destination =>
      obtain ⟨destination', hd', had⟩ := h.get?_some hd
      rw [hd']
      simp only [hao.bonds]
      exact w.add h.twins.toAlike hao.particle had.particle bond.name _ _

theorem bondEnergyAt (p : Point) : Same (b.bondEnergyAt p) (c.bondEnergyAt p) := by
  unfold Board.bondEnergyAt
  cases hc : b.grid.get? p with
  | none =>
    rw [h.get?_none hc]
    exact ⟨rfl, h⟩
  | some cell =>
    obtain ⟨cell', hc', hcc⟩ := h.get?_some hc
    rw [hc']
    simp only [hcc.bonds]
    have hfold : ∀ bonds : List Bond, ∀ s t, b.scene.Weighed c.scene s t →
        b.scene.Weighed c.scene (bonds.foldl (Board.addBondEnergy b.grid) s)
          (bonds.foldl (Board.addBondEnergy c.grid) t) := by
      intro bonds
      induction bonds with
      | nil => exact fun _ _ w => w
      | cons bond bonds ih => exact fun _ _ w => ih _ _ (h.addBondEnergy w bond)
    have w := hfold (cell.bonds.bondsAt p) _ _ h.twins.toAlike.weighed
    exact ⟨w.sum, h.learn w.toLearned⟩

theorem requestRemote (p : Point) (d : Direction) (remote : RemoteCell) :
    Alike (b.requestRemote p d remote) (c.requestRemote p d remote) := by
  unfold Board.requestRemote
  cases hc : b.grid.get? p with
  | none =>
    rw [h.get?_none hc]
    exact h
  | some cell =>
    obtain ⟨cell', hc', hcc⟩ := h.get?_some hc
    rw [hc']
    obtain ⟨hsum, hbc⟩ := h.bondEnergyAt p
    obtain ⟨r, -, hr⟩ := bondEnergyAt_eq b p
    obtain ⟨r', -, hr'⟩ := bondEnergyAt_eq c p
    rw [hr, hr'] at hbc
    have hnames : r'.name cell'.particle = r.name cell.particle := by
      obtain ⟨cell'', hc'', hcc⟩ := hbc.twins.cell hc
      cases (show c.grid.get? p = some cell'' from hc'').symm.trans hc'
      exact hcc.particle.name
    simp only [hr, hr', hsum, hnames, hcc.writes, h.config]
    refine ⟨hbc.twins, rfl, hbc.activity, hbc.remotes, hbc.random, ?_⟩
    show c.journal.send .. = b.journal.send ..
    rw [h.journal]

variable [Generator R γ]

theorem accept (delta : R) : Same (b.accept delta) (c.accept delta) := by
  unfold Board.accept
  rw [h.random]
  split
  · exact ⟨rfl, h⟩
  · exact ⟨rfl, h.reseed _⟩

/-- What comes of a source and a target is drawn alike. -/
theorem samplePair {i j k l : ParticleId} (hs : b.registry.Namesakes c.registry i j)
    (ht : b.registry.Namesakes c.registry k l) (d : Direction) :
    Agree (fun u v => Scene.Alike.DrawnAlike u.2.1 v.2.1 u.1 v.1 ∧
        b.scene.Learned c.scene u.2.1 v.2.1 ∧
        Alike { b with registry := u.2.1, random := u.2.2 }
          { c with registry := v.2.1, random := v.2.2 })
      (b.registry.samplePair i d k b.random) (c.registry.samplePair j d l c.random) := by
  rw [h.random]
  refine (h.twins.samplePair hs ht d b.random).mono fun u v huv => ?_
  obtain ⟨hdrawn, hrandom, hl⟩ := huv
  rw [hrandom]
  exact ⟨hdrawn, hl, (h.learn hl).reseed u.2.2⟩

/-- Two results tell the same values and leave boards that are the same by name. -/
theorem propose {e f : UpdateEvent R} (ev : UpdateEvent.Alike b.registry c.registry e f)
    (he : e.Meets b.grid) (hf : f.Meets c.grid) (barrier : R) :
    Agree (fun s t => t.1 = s.1 ∧ t.2.1 = s.2.1 ∧ s.2.2.Alike t.2.2) (b.propose e barrier)
      (c.propose f barrier) := by
  unfold Board.propose
  refine (ev.bind h.twins.toAlike).attach.bind fun s t hst => ?_
  obtain ⟨hs, ht, hbound, ev'⟩ := hst
  simp only [hbound]
  split
  · exact .ok ⟨rfl, rfl, h⟩
  · have w : b.scene.Weighed c.scene (s.2.energyDelta b.grid b.registry barrier)
        (t.2.energyDelta c.grid c.registry barrier) := ev'.energyDelta h.twins.toAlike barrier
    have hlearnt : Alike { b with registry := (s.2.energyDelta b.grid b.registry barrier).2 }
        { c with registry := (t.2.energyDelta c.grid c.registry barrier).2 } :=
      h.learn w.toLearned
    have ev'' := ev'.learned h.twins.toAlike w.toLearned
    obtain ⟨haccept, hbc⟩ := hlearnt.accept (s.2.energyDelta b.grid b.registry barrier).1
    obtain ⟨random, hr⟩ := accept_eq
      { b with registry := (s.2.energyDelta b.grid b.registry barrier).2 }
      (s.2.energyDelta b.grid b.registry barrier).1
    obtain ⟨random', hr'⟩ := accept_eq
      { c with registry := (t.2.energyDelta c.grid c.registry barrier).2 }
      (s.2.energyDelta b.grid b.registry barrier).1
    rw [hr, hr'] at hbc
    simp only [w.sum, haccept, hr, hr']
    split
    · refine (hbc.commit ev'' (he.bind hs) (hf.bind ht)).bind fun _ _ hbc' => .ok ⟨rfl, rfl, hbc'⟩
    · exact .ok ⟨rfl, rfl, hbc⟩

theorem attemptAt {p : Point} {cell cell' : Cell} (hc : b.grid.get? p = some cell)
    (hc' : c.grid.get? p = some cell') (hcc : b.registry.CellsAlike c.registry cell cell')
    (d : Direction) :
    Agree Same (b.attemptAt p cell.particle d) (c.attemptAt p cell'.particle d) := by
  have htopology : c.topology = b.topology := congrArg BoardConfig.topology h.config
  have hlookup : c.remotes.lookup (p + b.topology.offset d) =
      b.remotes.lookup (p + b.topology.offset d) := congrArg (List.lookup _) h.remotes
  unfold Board.attemptAt
  simp only [htopology, hlookup]
  cases hn : b.grid.get? (p + b.topology.offset d) with
  | none =>
    rw [h.get?_none hn]
    simp only
    split
    · exact .ok ⟨rfl, h.requestRemote p d _⟩
    · exact .ok ⟨rfl, h⟩
  | some target =>
    obtain ⟨target', hn', htt⟩ := h.get?_some hn
    rw [hn']
    refine (h.samplePair hcc.particle htt.particle d).bind fun u v huv => ?_
    obtain ⟨o, r, g⟩ := u
    obtain ⟨o', r', g'⟩ := v
    obtain ⟨hdrawn, hl, hbc⟩ := huv
    cases hdrawn with
    | none => exact .ok ⟨rfl, hbc⟩
    | some ho =>
      rename_i o o'
      simp only [ho.isIdle]
      split
      · exact .ok ⟨rfl, hbc⟩
      · have ev := UpdateEvent.alike_new p (p + b.topology.offset d) d
          (h.namesakes hl hcc.particle) (h.namesakes hl htt.particle) ho
        have hne := b.topology.add_offset_ne d p
        have he := UpdateEvent.meets_new hne hc hn d o
        have hf := UpdateEvent.meets_new hne hc' hn' d o'
        exact (hbc.propose ev he hf 0).bind fun s t hst => .ok ⟨hst.1, hst.2.2⟩

theorem step : Agree Same b.step c.step := by
  have hdrawn : c.activity.sample c.random = b.activity.sample b.random := by
    rw [h.activity, h.random]
  unfold Board.step
  simp only [hdrawn]
  generalize b.activity.sample b.random = drawn
  have hbc := h.reseed drawn.2
  split
  next => exact .ok ⟨rfl, hbc⟩
  next p _ =>
    cases hc : b.grid.get? p with
    | none =>
      rw [h.get?_none hc]
      exact .ok ⟨rfl, hbc⟩
    | some cell =>
      obtain ⟨cell', hc', hcc⟩ := h.get?_some hc
      rw [hc']
      refine (h.twins.sampleDir hcc.particle drawn.2).bind fun u v huv => ?_
      obtain ⟨hd, hrandom, hl⟩ := huv
      have hlearnt := (h.learn hl).reseed u.2.2
      have hcc' : u.2.1.CellsAlike v.2.1 cell cell' :=
        ⟨h.namesakes hl hcc.particle, hcc.writes, hcc.bonds⟩
      obtain ⟨d, r, g⟩ := u
      obtain ⟨d', r', g'⟩ := v
      cases hrandom
      cases hd
      cases d with
      | none => exact .ok ⟨rfl, hlearnt⟩
      | some d => exact hlearnt.attemptAt hc hc' hcc' d

omit h in
theorem updateGo {n : Nat} {stats : UpdateStats} {b c : Board R γ} (h : b.Alike c) :
    Agree Same (Board.update.go n stats b) (Board.update.go n stats c) := by
  induction n generalizing stats b c with
  | zero => exact .ok ⟨rfl, h⟩
  | succ n ih =>
    refine h.step.bind fun s t hst => ?_
    obtain ⟨o, b'⟩ := s
    obtain ⟨o', c'⟩ := t
    obtain ⟨ho, hbc⟩ := hst
    cases ho
    exact ih hbc

theorem update (n : Nat) : Agree Same (b.update n) (c.update n) := h.updateGo

theorem tick : Agree Same b.tick c.tick := by
  have htop : c.activity.topRate = b.activity.topRate := congrArg (·.topRate) h.activity
  unfold Board.tick
  simp only [htop, h.random]
  exact (h.reseed _).update _

end

end Board.Alike

end ParticleAutomaton
