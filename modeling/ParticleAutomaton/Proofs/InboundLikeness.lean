import ParticleAutomaton.Board.Inbound
import ParticleAutomaton.Proofs.StepLikeness

namespace ParticleAutomaton

theorem Topology.sub_offset_ne (t : Topology) (d : Direction) (p : Point) : p - t.offset d ≠ p := by
  intro he
  rw [Point.eq_iff, Point.sub_x, Point.sub_y] at he
  have hz := t.offset_ne_zero d
  omega

theorem UpdateEvent.meets_ofRemote {R : Type} {g : Grid} {p q : Point} {d : Cell} (hpq : p ≠ q)
    (hd : g.get? q = some d) (dir : Direction) (source : ParticleId) (o : Outcome R) :
    (UpdateEvent.ofRemote p q dir source d.particle o).Meets g := by
  refine ⟨hpq, nofun, fun x hx => ?_⟩
  cases hd.symm.trans hx
  rfl

namespace Board.Alike

variable {R γ : Type} [Scalar R] {b c : Board R γ} (h : b.Alike c)

include h

theorem applyReply (m : EvolveReply R) : Agree Alike (b.applyReply m) (c.applyReply m) := by
  unfold Board.applyReply
  cases hc : b.grid.get? m.source with
  | none =>
    rw [h.get?_none hc]
    exact .ok h
  | some cell =>
    obtain ⟨cell', hc', hcc⟩ := h.get?_some hc
    rw [hc']
    simp only [hcc.writes]
    split
    next => exact .ok h
    next =>
      obtain ⟨hknown, hn⟩ := h.intern m.newState
      obtain ⟨cell'', hc'', hcc⟩ := hknown.get?_some hc
      cases hc'.symm.trans hc''
      have heq := hn.eq_iff hcc.particle hknown.twins.left hknown.twins.right
      by_cases he : (b.registry.intern m.newState).1 = cell.particle
      · rw [if_pos he, if_pos (heq.mp he)]
        exact .ok hknown
      · rw [if_neg he, if_neg fun he' => he (heq.mpr he')]
        refine (hknown.write m.source hn).bind fun s t hst => .ok ?_
        rw [hst.1]
        exact hst.2.drawAll s.1

variable [Generator R γ]

/-- A source that is told by its name is the same for both. -/
theorem evolveTarget (m : EvolveRequest R) :
    Agree (fun s t => t.1 = s.1 ∧ t.2.1 = s.2.1 ∧ s.2.2.Alike t.2.2) (b.evolveTarget m)
      (c.evolveTarget m) := by
  have htopology : c.topology = b.topology := congrArg BoardConfig.topology h.config
  unfold Board.evolveTarget
  cases hc : b.grid.get? m.target with
  | none =>
    rw [h.get?_none hc]
    exact .ok ⟨rfl, rfl, h⟩
  | some cell =>
    obtain ⟨cell', hc', hcc⟩ := h.get?_some hc
    rw [hc']
    simp only [htopology]
    split
    next => exact .ok ⟨rfl, rfl, h⟩
    next =>
      obtain ⟨hknown, hsource⟩ := h.intern m.sourceState
      obtain ⟨cell'', hc'', hcc⟩ := hknown.get?_some hc
      cases hc'.symm.trans hc''
      refine (hknown.samplePair hsource hcc.particle m.dir).bind fun u v huv => ?_
      obtain ⟨o, r, g⟩ := u
      obtain ⟨o', r', g'⟩ := v
      obtain ⟨hdrawn, hl, hbc⟩ := huv
      cases hdrawn with
      | none => exact .ok ⟨rfl, rfl, hbc⟩
      | some ho =>
        rename_i o o'
        have hbc : Alike { b with registry := r, random := g }
            { c with registry := r', random := g' } := hbc
        have hname : r'.name o'.newSource = r.name o.newSource := ho.newSource.name
        have hleft : Board.topology { b with registry := r, random := g } = b.topology := rfl
        have hright : Board.topology { c with registry := r', random := g' } = b.topology :=
          htopology
        simp only [ho.isIdle, hleft, hright]
        split
        next => exact .ok ⟨rfl, rfl, hbc⟩
        next =>
          have ev := UpdateEvent.alike_ofRemote (m.target - b.topology.offset m.dir) m.target m.dir
            (hknown.namesakes hl hsource) (hknown.namesakes hl hcc.particle) ho
          have hne := b.topology.sub_offset_ne m.dir m.target
          have he := UpdateEvent.meets_ofRemote hne hc m.dir (b.registry.intern m.sourceState).1 o
          have hf := UpdateEvent.meets_ofRemote hne hc' m.dir (c.registry.intern m.sourceState).1 o'
          refine (hbc.propose ev he hf m.barrier).bind fun s t hst => ?_
          obtain ⟨hresult, hdelta, hst⟩ := hst
          simp only [hresult, hdelta, hname]
          split
          · exact .ok ⟨rfl, rfl, hst⟩
          · exact .ok ⟨rfl, rfl, hst⟩

theorem handle (m : Message R) : Agree Alike (b.handle m) (c.handle m) := by
  cases m with
  | evolve m =>
    refine (h.evolveTarget m).bind fun s t hst => .ok ?_
    obtain ⟨hstate, henergy, hbc⟩ := hst
    rw [hstate, henergy]
    exact hbc.send m.returnAddress _
  | reply m => exact h.applyReply m

theorem handleText [MessageReader R] (text : String) :
    Agree Alike (b.handleText text) (c.handleText text) := by
  unfold Board.handleText
  split
  next m _ => exact h.handle m
  next => exact .ok h

end Board.Alike

end ParticleAutomaton
