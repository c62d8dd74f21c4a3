import ParticleAutomaton.Proofs.EventLikeness

namespace ParticleAutomaton

namespace Scene.Alike

variable {R γ : Type}

/-- Two draws of outcomes, each with its own registry, are the same by name. -/
inductive DrawnAlike (r s : Registry R) : Option (Outcome R) → Option (Outcome R) → Prop
  | none : DrawnAlike r s none none
  | some {o p : Outcome R} (h : Outcome.Alike r s o p) : DrawnAlike r s (some o) (some p)

theorem drawnAlike_of_named {r s : Registry R} {o p : Option (Outcome R)}
    (ho : ∀ o', o = some o' → o'.Known r) (hp : ∀ p', p = some p' → p'.Known s)
    (h : o.map r.named = p.map s.named) : DrawnAlike r s o p := by
  cases o with
  | none =>
    cases p with
    | none => exact .none
    | some p => exact nomatch h
  | some o =>
    cases p with
    | none => exact nomatch h
    | some p =>
      have he : r.named o = s.named p := Option.some.inj h
      have ko := ho o rfl
      have kp := hp p rfl
      have hns : r.name o.newSource = s.name p.newSource := congrArg NamedOutcome.newSource he
      have hnt : r.name o.newTarget = s.name p.newTarget := congrArg NamedOutcome.newTarget he
      exact .some ⟨⟨_, ko.source, hns ▸ kp.source⟩, ⟨_, ko.target, hnt ▸ kp.target⟩,
        (congrArg NamedOutcome.verb he).symm, (congrArg NamedOutcome.rule he).symm⟩

variable [Scalar R] {x y : Scene R} {i j k l : ParticleId}

theorem activityRate (a : x.Alike y) (h : x.2.Namesakes y.2 i j) :
    Agree (fun u v => v.1 = u.1 ∧ x.Learned y u.2 v.2) (x.2.activityRate i)
      (y.2.activityRate j) := by
  obtain ⟨name, hi, hj⟩ := h
  have hx := Registry.activityRate_agree a.left hi
  have hy := Registry.activityRate_agree a.right hj
  rw [a.rules] at hy
  refine (hx.trans hy.symm).mono fun u v huv => ?_
  obtain ⟨rate, ⟨hu, eu, su⟩, hv, ev, sv⟩ := huv
  exact ⟨hv.trans hu.symm, su, sv, eu, ev⟩

variable [Generator R γ]

theorem sampleDir (a : x.Alike y) (h : x.2.Namesakes y.2 i j) (g : γ) :
    Agree (fun u v => v.1 = u.1 ∧ v.2.2 = u.2.2 ∧ x.Learned y u.2.1 v.2.1) (x.2.sampleDir i g)
      (y.2.sampleDir j g) := by
  obtain ⟨name, hi, hj⟩ := h
  have hx := Registry.sampleDir_agree a.left hi g
  have hy := Registry.sampleDir_agree a.right hj g
  rw [a.rules] at hy
  refine (hx.trans hy.symm).mono fun u v huv => ?_
  obtain ⟨drawn, ⟨hu, gu, eu, su⟩, hv, gv, ev, sv⟩ := huv
  exact ⟨hv.trans hu.symm, gv.trans gu.symm, su, sv, eu, ev⟩

theorem samplePair (a : x.Alike y) (h : x.2.Namesakes y.2 i j) (h' : x.2.Namesakes y.2 k l)
    (d : Direction) (g : γ) :
    Agree (fun u v => DrawnAlike u.2.1 v.2.1 u.1 v.1 ∧ v.2.2 = u.2.2 ∧ x.Learned y u.2.1 v.2.1)
      (x.2.samplePair i d k g) (y.2.samplePair j d l g) := by
  obtain ⟨name, hi, hj⟩ := h
  obtain ⟨name', hk, hl⟩ := h'
  have hx := Registry.samplePair_agree a.left hi hk d g
  have hy := Registry.samplePair_agree a.right hj hl d g
  rw [a.rules, a.maxNameLen] at hy
  refine (hx.trans hy.symm).mono fun u v huv => ?_
  obtain ⟨drawn, ⟨eu, su, ku, hu⟩, ev, sv, kv, hv⟩ := huv
  have he := hu.trans hv.symm
  exact ⟨drawnAlike_of_named ku kv (congrArg Prod.fst he), (congrArg Prod.snd he).symm, su, sv, eu,
    ev⟩

end Scene.Alike

namespace Board

variable {R γ : Type} [Scalar R]

/-- The grid of a board with its registry. -/
def scene (b : Board R γ) : Scene R := (b.grid, b.registry)

/-- Two boards are the same by name. -/
structure Alike (b c : Board R γ) : Prop where
  twins : b.scene.Twins c.scene
  config : c.config = b.config
  activity : c.activity = b.activity
  remotes : c.remotes = b.remotes
  random : c.random = b.random
  journal : c.journal = b.journal

namespace Alike

variable {b c : Board R γ} (h : b.Alike c)

include h

theorem sound : b.registry.Sound := h.twins.left

theorem get?_none {p : Point} (hc : b.grid.get? p = none) : c.grid.get? p = none :=
  h.twins.get?_none hc

theorem get?_some {p : Point} {cell : Cell} (hc : b.grid.get? p = some cell) :
    ∃ cell', c.grid.get? p = some cell' ∧ b.registry.CellsAlike c.registry cell cell' :=
  h.twins.cell hc

/-- The particles of all cells are there. -/
theorem named {p : Point} {cell : Cell} (hc : b.grid.get? p = some cell) :
    ∃ name, b.registry.name? cell.particle = some name := by
  obtain ⟨cell', -, hcell⟩ := h.get?_some hc
  obtain ⟨name, hn, -⟩ := hcell.particle
  exact ⟨name, hn⟩

theorem intern (name : String) :
    Alike { b with registry := (b.registry.intern name).2 }
        { c with registry := (c.registry.intern name).2 } ∧
      (b.registry.intern name).2.Namesakes (c.registry.intern name).2 (b.registry.intern name).1
        (c.registry.intern name).1 :=
  ⟨⟨(h.twins.intern name).1, h.config, h.activity, h.remotes, h.random, h.journal⟩,
    (h.twins.intern name).2⟩

theorem learn {r s : Registry R} (l : b.scene.Learned c.scene r s) :
    Alike { b with registry := r } { c with registry := s } :=
  ⟨h.twins.learn l, h.config, h.activity, h.remotes, h.random, h.journal⟩

theorem drawAll (ps : List Point) : Alike (b.drawAll ps) (c.drawAll ps) :=
  ⟨h.twins, h.config, h.activity, h.remotes, h.random, congrArg (·.drawAll ps) h.journal⟩

theorem refreshRate (p : Point) : Agree Alike (b.refreshRate p) (c.refreshRate p) := by
  unfold Board.refreshRate
  cases hc : b.grid.get? p with
  | none =>
    rw [h.get?_none hc]
    exact .ok h
  | some cell =>
    obtain ⟨d, hd, hcd⟩ := h.get?_some hc
    rw [hd]
    refine (h.twins.activityRate hcd.particle).bind fun u v huv => .ok ?_
    obtain ⟨hrate, hl⟩ := huv
    exact ⟨h.twins.learn hl, h.config, by rw [hrate, h.activity], h.remotes, h.random, h.journal⟩

theorem refreshRates (ps : List Point) : Agree Alike (b.refreshRates ps) (c.refreshRates ps) :=
  Agree.foldlM h fun p _ _ _ hbc => hbc.refreshRate p

end Alike

/-- Two results tell the same and leave boards that are the same by name. -/
def Same {α : Type} (s t : α × Board R γ) : Prop := t.1 = s.1 ∧ s.2.Alike t.2

theorem write_of_none {b : Board R γ} {p : Point} (h : b.grid.get? p = none)
    (particle : ParticleId) : b.write p particle = .ok ([], b) := by
  unfold write
  rw [h]

theorem write_of_some {b : Board R γ} {p : Point} {c : Cell} (h : b.grid.get? p = some c)
    (particle : ParticleId) :
    b.write p particle = b.registry.exchange c.particle particle >>= fun registry =>
      { b with grid := overwritten b.grid p particle, registry }.refreshRate p >>= fun b' =>
        .ok (p :: (b.grid.removeBonds p).1, b') := by
  unfold write Registry.exchange
  rw [h]
  simp only
  split <;> rfl

namespace Alike

variable {b c : Board R γ} (h : b.Alike c)

include h

theorem removeBonds (p : Point) :
    (c.grid.removeBonds p).1 = (b.grid.removeBonds p).1 ∧
      Scene.Twins ((b.grid.removeBonds p).2, b.registry)
        ((c.grid.removeBonds p).2, c.registry) := by
  obtain ⟨ht, hs⟩ := h.twins.sameBonds.removeBonds p
  exact ⟨ht, h.twins.rebond (Grid.sameStates_removeBonds b.grid p)
    (Grid.sameStates_removeBonds c.grid p) hs.field⟩

theorem write (p : Point) {i j : ParticleId} (hij : b.registry.Namesakes c.registry i j) :
    Agree Same (b.write p i) (c.write p j) := by
  obtain ⟨ht, hrem⟩ := h.removeBonds p
  cases hc : b.grid.get? p with
  | none =>
    rw [write_of_none hc, write_of_none (h.twins.get?_none hc)]
    exact .ok ⟨rfl, h⟩
  | some cell =>
    obtain ⟨d, hd, hcd⟩ := h.twins.cell hc
    obtain ⟨c', hc', hcp, -⟩ := (Grid.sameStates_removeBonds b.grid p).get? hc
    obtain ⟨d', hd', hdp, -⟩ := (Grid.sameStates_removeBonds c.grid p).get? hd
    obtain ⟨r, s, hr, hs, -, -, htwins⟩ := hrem.write hc' hd' hij
    rw [hcp] at hr
    rw [hdp] at hs
    rw [write_of_some hc, write_of_some hd, ht]
    simp only at hr hs
    rw [hr, hs, ok_bind, ok_bind]
    have hnew : Alike { b with grid := overwritten b.grid p i, registry := r }
        { c with grid := overwritten c.grid p j, registry := s } :=
      ⟨htwins, h.config, h.activity, h.remotes, h.random, h.journal⟩
    exact (hnew.refreshRate p).bind fun _ _ hbc => .ok ⟨rfl, hbc⟩

theorem set (p : Point) (name : String) : Agree Same (b.set p name) (c.set p name) := by
  have hcontains : c.grid.contains p = b.grid.contains p := h.twins.contains p
  unfold Board.set
  rw [hcontains]
  split
  · exact .ok ⟨rfl, h⟩
  · obtain ⟨hlearnt, hn⟩ := h.intern name
    refine (hlearnt.write p hn).bind fun s t hst => .ok ?_
    rw [hst.1]
    exact ⟨rfl, hst.2.drawAll s.1⟩

theorem fill (name : String) : Agree Alike (b.fill name) (c.fill name) := by
  have hpoints : c.grid.points = b.grid.points := h.twins.points
  unfold Board.fill
  rw [hpoints]
  exact Agree.foldlM h fun p _ _ _ hbc => (hbc.set p name).map fun _ _ hst => hst.2

theorem addBond (bond : Bond) : Same (b.addBond bond) (c.addBond bond) := by
  have hcontains : ∀ p, c.grid.contains p = b.grid.contains p := h.twins.contains
  rw [addBond_eq, addBond_eq, hcontains, hcontains]
  split
  · exact ⟨rfl, h⟩
  · exact ⟨rfl, h.twins.rebond (Grid.sameStates_link b.grid bond) (Grid.sameStates_link c.grid bond)
      (h.twins.sameBonds.link bond), h.config, h.activity, h.remotes, h.random, h.journal⟩

theorem removeAll (p : Point) : Alike (b.removeBonds p) (c.removeBonds p) := by
  obtain ⟨ht, hrem⟩ := h.removeBonds p
  have hnew : Alike { b with grid := (b.grid.removeBonds p).2 }
      { c with grid := (c.grid.removeBonds p).2 } :=
    ⟨hrem, h.config, h.activity, h.remotes, h.random, h.journal⟩
  unfold Board.removeBonds
  simp only [ht]
  exact hnew.drawAll _

theorem connect (p : Point) (cell : RemoteCell) : Same (b.connect p cell) (c.connect p cell) := by
  have hcontains : c.grid.contains p = b.grid.contains p := h.twins.contains p
  unfold Board.connect
  rw [hcontains, h.remotes]
  split
  · exact ⟨rfl, h⟩
  · exact ⟨rfl, h.twins, h.config, h.activity, rfl, h.random, h.journal⟩

/-- A flush is not seen. -/
theorem flush : Alike b c.flush.2 :=
  ⟨h.twins.flush, h.config, h.activity, h.remotes, h.random, h.journal⟩

end Alike

end Board

end ParticleAutomaton
