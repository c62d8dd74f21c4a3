import Mathlib
import ParticleAutomaton.Proofs.RewrittenCells
import ParticleAutomaton.Proofs.Shares

namespace ParticleAutomaton

namespace UpdateEvent

variable {R : Type} {e e' : UpdateEvent R} {g : Grid}

/-- A rule about bonds is for no change whose source is on another board, so that such a change
drops the bonds of its target and no other. -/
theorem planRule_remote (hr : e.remote = true) {l l' : Labels} {rule : TransformRule R}
    {plan : Plan} (h : e.planRule g l rule = (some plan, l')) :
    plan = (e.droppedAt g l e.target).foldl (Plan.drop g) .empty := by
  unfold planRule at h
  split at h
  next => exact nomatch h
  next hbonds =>
    have hnone : ((rule.required = [] ∧ rule.optional = []) ∧ rule.excluded = []) ∧
        rule.created = [] := by
      simpa [hr, TransformRule.hasBonds] using hbonds
    obtain ⟨⟨⟨hrequired, hoptional⟩, hexcluded⟩, hcreated⟩ := hnone
    have hends : e.ends = [e.target] := by simp [ends, hr]
    rw [hrequired, hoptional, hexcluded, hcreated] at h
    simp only [Labels.resolve, Labels.resolveIn, Labels.pass, List.isEmpty_nil, if_true,
      List.any_nil, Bool.false_eq_true, if_false, planFor?, createdBonds, List.mapM_nil, hends,
      List.flatMap_cons, List.flatMap_nil, List.append_nil, Prod.mk.injEq] at h
    exact (Option.some.inj h.1).symm

/-- A change that is not bound yet can be bound, or is impossible. -/
theorem bind_ok (hb : e.bound = false) (g : Grid) : ∃ bound e', e.bind g = .ok (bound, e') := by
  unfold bind
  rw [if_neg (by simp [hb])]
  simp only
  split
  next => exact ⟨_, _, rfl⟩
  next => split <;> exact ⟨_, _, rfl⟩

theorem bind_remote (hr : e.remote = true) (hrule : e.outcome.rule.isSome)
    (hb : e.bind g = .ok (true, e')) : ∃ labels plan, e' = { e with bound := true, labels, plan } ∧
      plan = (e.droppedAt g (.ofEnds e.source e.target) e.target).foldl (Plan.drop g) .empty := by
  obtain ⟨rule, hrule⟩ := Option.isSome_iff_exists.mp hrule
  unfold bind at hb
  simp only [hrule] at hb
  split at hb
  next => exact nomatch hb
  next =>
    split at hb
    next hp =>
      cases hb
      exact ⟨_, _, rfl, planRule_remote hr hp⟩
    next => cases hb

/-- A change that has only its target on the board, and drops the bonds there, rewrites it. -/
theorem rewrites_applied (hm : g.field.Mirrored) (hr : e.remote = true) (he : e.Meets g) {c : Cell}
    (hc : g.get? e.target = some c) {l : Labels} (hl : l.found = [])
    (hplan : e.plan = (e.droppedAt g l e.target).foldl (Plan.drop g) .empty) :
    g.Rewrites e.target e.newTarget (e.applied g) := by
  have hw : e.plan.WellFormed g := hplan ▸ Plan.wellFormed_drops _ (Plan.wellFormed_empty g)
  have hends : e.ends = [e.target] := by simp [ends, hr]
  have hp : g.field.Holds e.target := Grid.holds_field.mpr (Grid.contains_of_get? hc)
  have hdropped (k : Bond) : k ∈ e.droppedAt g l e.target ↔
      e.newTarget ≠ c.particle ∧ (k.origin = e.target ∧ g.field.Leaves k ∨
        k.destination = e.target ∧ g.field.Enters k) := by
    rw [mem_droppedAt hc]
    simp [hl, changesAt, hr, targetChanges, he.target c hc]
  have hsame : Grid.SameStates (g.put e.target e.newTarget) (e.applied g) := by
    have hput : e.putEnds g = g.put e.target e.newTarget := by rw [putEnds, if_pos hr]
    exact hput ▸ e.plan.sameStates_carryOut (e.putEnds g)
  refine ⟨hsame.width.trans (Grid.width_modify ..), hsame.height.trans (Grid.height_modify ..),
    fun {d} hd => ?_, fun {q d} hq hd => ?_, fun {d} hd k => ?_, fun {d} hd k => ?_⟩
  · obtain ⟨d', hd', hparticle, hwrites, -⟩ := get?_applied he.apart hw hd
    refine ⟨d', hd', hparticle.trans (if_pos rfl), hwrites.trans (if_pos ?_)⟩
    exact hends ▸ List.mem_singleton.mpr rfl
  · obtain ⟨d', hd', hparticle, hwrites, -⟩ := get?_applied he.apart hw hd
    have hnot : q ∉ e.ends := fun hin => hq (List.mem_singleton.mp (hends ▸ hin))
    exact ⟨d', hd', hparticle.trans ((if_neg hq).trans (if_neg hnot)), hwrites.trans (if_neg hnot)⟩
  · cases hc.symm.trans hd
    rw [field_applied hw, hplan, Plan.leaves_drops, Plan.field_empty, hdropped]
    exact and_congr_right fun hk => by rw [Grid.endsAt_of_leaves hm hp hk, not_and]
  · cases hc.symm.trans hd
    rw [field_applied hw, hplan, Plan.enters_drops, Plan.field_empty, hdropped]
    exact and_congr_right fun hk => by rw [Grid.endsAt_of_enters hm hp hk, not_and]

end UpdateEvent

namespace Board

variable {R γ : Type}

section

variable [Scalar R] {b : Board R γ} (hb : b.Alike b) (ht : b.registry.rules.Total)
  {e : UpdateEvent R} (ev : UpdateEvent.Alike b.registry b.registry e e) (he : e.Meets b.grid)

include hb ht ev he

/-- A change between known particles is carried out, if the rules never fail. -/
theorem commit_ok : ∃ c, b.commit e = .ok c := by
  obtain ⟨s, t, hs, -, w⟩ := ev.commit hb.twins he he
  have hs : e.commit b.grid b.registry = .ok s := hs
  have hkeeps : b.registry.Keeps s.2.2 := w.left
  have hts : s.2.2.rules.Total := hkeeps.rules.symm ▸ ht
  obtain ⟨c, hc⟩ := refreshRates_ok (b := { b with grid := s.2.1, registry := s.2.2 }) hts s.1
  unfold commit
  simp only
  rw [hs, ok_bind, hc, ok_bind]
  exact ⟨_, rfl⟩

variable [Generator R γ]

/-- What comes of a proposed change: nothing, or all of it. -/
theorem propose_ok (hbound : e.bound = false) (barrier : R) :
    (∃ o delta registry random, o ≠ .accepted ∧ b.registry.Grows registry ∧
      b.propose e barrier = .ok (o, delta, { b with registry, random })) ∨
    ∃ delta e' registry random c, e.bind b.grid = .ok (true, e') ∧
      b.registry.Extends registry ∧ registry.Sound ∧
      commit { b with registry, random } e' = .ok c ∧
      b.propose e barrier = .ok (.accepted, delta, c) := by
  obtain ⟨bound, e', hbind⟩ := UpdateEvent.bind_ok hbound b.grid
  have ev' := ((ev.bind hb.twins.toAlike).self hbind).2
  unfold propose
  rw [hbind, ok_bind]
  cases bound with
  | false => exact Or.inl ⟨.bindFailed, 0, b.registry, b.random, nofun, .refl _, rfl⟩
  | true =>
    have hl : b.scene.Learned b.scene (e'.energyDelta b.grid b.registry barrier).2
        (e'.energyDelta b.grid b.registry barrier).2 :=
      (ev'.energyDelta hb.twins.toAlike barrier).toLearned
    have hgrows := e'.grows_energyDelta b.grid b.registry barrier
    have hlearnt := hb.learn hl
    have ev'' : UpdateEvent.Alike _ _ e' e' := ev'.learned hb.twins.toAlike hl
    simp only [Bool.not_true, Bool.false_eq_true, if_false]
    generalize e'.energyDelta b.grid b.registry barrier = weighed at hl hgrows hlearnt ev'' ⊢
    obtain ⟨random, hrandom⟩ := accept_eq { b with registry := weighed.2 } weighed.1
    rw [hrandom]
    split
    next =>
      have hrules : weighed.2.rules.Total := hl.leftExtends.rules.symm ▸ ht
      obtain ⟨c, hc⟩ := commit_ok (hlearnt.reseed random) hrules ev'' (he.bind hbind)
      have hc : commit { b with registry := weighed.2, random } e' = .ok c := hc
      refine Or.inr ⟨weighed.1, e', weighed.2, random, c, rfl, hl.leftExtends, hl.left, hc, ?_⟩
      rw [hc]
      rfl
    next => exact Or.inl ⟨.rejected, weighed.1, weighed.2, random, nofun, hgrows, rfl⟩

end

/-- A change whose source is on another board puts the new particle at its target. -/
theorem puts_of_commit [Scalar R] {b c : Board R γ} (hcovered : b.Covered)
    (hm : b.grid.field.Mirrored) {e e' : UpdateEvent R} (hr : e.remote = true)
    (hrule : e.outcome.rule.isSome) (he : e.Meets b.grid) (hin : b.grid.contains e.target = true)
    (hbind : e.bind b.grid = .ok (true, e')) {registry : Registry R} {random : γ}
    (hk : b.registry.Retains registry) {name : String}
    (hn : registry.name? e.newTarget = some name)
    (h : commit { b with registry, random } e' = .ok c) :
    b.Puts e.target name c ∧ c.journal.sent = b.journal.sent := by
  obtain ⟨cell, hcell⟩ := Grid.get?_of_contains hin
  obtain ⟨labels, plan, rfl, hplan⟩ := UpdateEvent.bind_remote hr hrule hbind
  have hw : plan.WellFormed b.grid := hplan ▸ Plan.wellFormed_drops _ (Plan.wellFormed_empty b.grid)
  obtain ⟨ps, hset⟩ := resettled_of_commit (b := { b with registry, random }) hcovered
    (he.bind hbind).apart hw h
  have hrewrites := UpdateEvent.rewrites_applied
    (e := { e with bound := true, labels, plan }) hm hr (he.bind hbind) hcell
    (l := .ofEnds e.source e.target) rfl hplan
  have hretains : registry.Retains c.registry := hset.retains
  obtain ⟨registry', activity, journal, rfl, hsent⟩ := commit_eq_ok h
  exact ⟨⟨rfl, rfl, hk.trans hretains, e.newTarget, hretains.name? hn, hrewrites⟩, hsent⟩

theorem Puts.since {b c : Board R γ} {registry : Registry R} {random : γ} {p : Point}
    {name : String} (h : Puts { b with registry, random } p name c)
    (hk : b.registry.Retains registry) : b.Puts p name c :=
  ⟨h.config, h.remotes, hk.trans h.retains, h.cell⟩

/-- What comes of a proposed change whose source is on another board. -/
theorem propose_ofRemote_ok [Scalar R] [Generator R γ] {b : Board R γ} (hb : b.Alike b)
    (hcovered : b.Covered) (hm : b.grid.field.Mirrored) (ht : b.registry.rules.Total)
    {place target : Point} (hne : place ≠ target) {cell : Cell}
    (hc : b.grid.get? target = some cell) {source : ParticleId} {sourceName targetName : String}
    (hsource : b.registry.name? source = some sourceName)
    (htarget : b.registry.name? cell.particle = some targetName) {o : Outcome R}
    (ho : o.Known b.registry) (hrule : o.rule.isSome) (d : Direction) (barrier : R) :
    (∃ result delta registry random, result ≠ .accepted ∧ b.registry.Grows registry ∧
      b.propose (.ofRemote place target d source cell.particle o) barrier =
        .ok (result, delta, { b with registry, random })) ∨
    ∃ delta c, b.propose (.ofRemote place target d source cell.particle o) barrier =
        .ok (.accepted, delta, c) ∧
      b.Puts target (b.registry.named o).newTarget c ∧ c.journal.sent = b.journal.sent := by
  have hmet := UpdateEvent.meets_ofRemote hne hc d source o
  have ev : UpdateEvent.Alike b.registry b.registry _ _ :=
    UpdateEvent.alike_ofRemote place target d ⟨_, hsource, hsource⟩ ⟨_, htarget, htarget⟩
      ⟨⟨_, ho.source, ho.source⟩, ⟨_, ho.target, ho.target⟩, rfl, rfl⟩
  rcases propose_ok hb ht ev hmet rfl barrier with
    ⟨result, delta, registry, random, hresult, hgrown, hpropose⟩ |
      ⟨delta, e, registry, random, c, hbind, hext, -, hcommit, hpropose⟩
  · exact Or.inl ⟨result, delta, registry, random, hresult, hgrown, hpropose⟩
  · have hkeeps : b.registry.Retains registry :=
      ⟨hext.rules, hext.maxNameLen, hb.sound.name?_of_keeps hext.toKeeps⟩
    have hputs := puts_of_commit hcovered hm rfl hrule hmet (Grid.contains_of_get? hc) hbind hkeeps
      (hkeeps.name? ho.target) hcommit
    exact Or.inr ⟨delta, c, hpropose, hputs⟩

variable [ShareScalar R] [Generator R γ]

/-- What comes of a request: nothing, or a drawn outcome is put at its target. -/
theorem evolveTarget_ok {b : Board R γ} (hb : b.Alike b) (hcovered : b.Covered)
    (hm : b.grid.field.Mirrored) (hp : b.registry.rules.Probable)
    (htop : b.registry.rules.topology = b.topology) (m : EvolveRequest R) :
    (∃ registry random, b.registry.Grows registry ∧
      b.evolveTarget m = .ok (m.sourceState, 0, { b with registry, random })) ∨
    ∃ name outcomes o random energy c, b.particleName? m.target = some name ∧
      b.registry.rules.pairOutcomes b.registry.maxNameLen
        (Text.truncate b.registry.maxNameLen m.sourceState) m.dir name = .ok outcomes ∧
      outcomes.sample b.random = (some o, random) ∧ o.rule.isSome ∧
      Text.truncate b.registry.maxNameLen o.newSource = o.newSource ∧
      b.evolveTarget m = .ok (o.newSource, energy, c) ∧ b.Puts m.target o.newTarget c ∧
      c.journal.sent = b.journal.sent := by
  unfold evolveTarget
  cases hc : b.grid.get? m.target with
  | none => exact Or.inl ⟨b.registry, b.random, .refl _, rfl⟩
  | some cell =>
    simp only
    split
    next => exact Or.inl ⟨b.registry, b.random, .refl _, rfl⟩
    next hd =>
      obtain ⟨name, hname⟩ := hb.named hc
      obtain ⟨hsound, hext, hsource⟩ := hb.sound.intern m.sourceState
      have hgrows := (Registry.enrolls_intern b.registry m.sourceState).grows
      generalize b.registry.intern m.sourceState = interned at hsound hext hsource hgrows ⊢
      obtain ⟨source, known⟩ := interned
      have hd : m.dir < known.rules.topology.count := by
        rw [hext.rules, htop]
        exact Nat.lt_of_not_le hd
      obtain ⟨outcomes, o, registry, random, houtcomes, hdraw, hext', hsound', hout, hsample⟩ :=
        hsound.samplePair_ok (hext.rules.symm ▸ hp) hsource
          (hb.sound.name?_of_keeps hext.toKeeps hname) hd b.random
      have hgrows' := hgrows.trans (Registry.grows_of_samplePair hdraw)
      simp only at hdraw
      rw [hdraw, ok_bind]
      cases o with
      | none => exact Or.inl ⟨registry, random, hgrows', rfl⟩
      | some o =>
        simp only
        split
        next => exact Or.inl ⟨registry, random, hgrows', rfl⟩
        next hidle =>
          have hextended := hext.trans hext'
          have hlearnt : Alike { b with registry, random } { b with registry, random } :=
            (hb.learn ⟨hsound', hsound', hextended, hextended⟩).reseed random
          have htotal : registry.rules.Total := by
            rw [hextended.rules]
            exact Rulebook.total_of_probs hp
          have hrule : o.rule.isSome = true := by
            rw [Option.isSome_iff_ne_none]
            simpa [Outcome.isIdle] using hidle
          have hknown := hout o rfl
          rw [show topology { b with registry, random } = b.topology from rfl]
          rcases propose_ofRemote_ok hlearnt hcovered hm htotal
              (b.topology.sub_offset_ne m.dir m.target) hc
              (hsound.name?_of_keeps hext'.toKeeps hsource)
              (hb.sound.name?_of_keeps hextended.toKeeps hname) hknown hrule m.dir m.barrier with
            ⟨result, delta, registry', random', hresult, hgrown, hpropose⟩ |
              ⟨delta, c, hpropose, hputs, hsent⟩
          · refine Or.inl ⟨registry', random', hgrows'.trans hgrown, ?_⟩
            rw [hpropose, ok_bind]
            exact if_neg hresult
          · refine Or.inr ⟨name, outcomes, registry.named o, random, delta, c, ?_, ?_, hsample,
              hrule, hextended.maxNameLen ▸ hsound'.bounded hknown.source, ?_,
              hputs.since (hgrows'.retains hb.sound.arena), hsent⟩
            · rw [particleName?, hc, Option.map_some, Registry.name_of hname]
            · rwa [hext.rules, hext.maxNameLen] at houtcomes
            · rw [hpropose, ok_bind]
              rfl

end Board

end ParticleAutomaton
