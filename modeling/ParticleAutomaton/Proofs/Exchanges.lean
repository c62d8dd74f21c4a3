import Mathlib
import ParticleAutomaton.Proofs.MirroredBonds
import ParticleAutomaton.Proofs.RemoteChanges
import ParticleAutomaton.Proofs.StepTransactions

namespace ParticleAutomaton.Board

variable {R γ : Type}

/-- What has come of a board. The name of a cell is the same as long as the cell is not written. -/
structure Follows [RateScalar R] (b c : Board R γ) : Prop where
  alike : c.Alike c
  synced : c.Synced
  mirrored : c.grid.field.Mirrored
  config : c.config = b.config
  rules : c.registry.rules = b.registry.rules
  ages : b.grid.Ages c.grid
  name? : ∀ {p cell cell' name}, b.grid.get? p = some cell → c.grid.get? p = some cell' →
    cell'.writes = cell.writes → b.registry.name? cell.particle = some name →
      c.registry.name? cell'.particle = some name

section

variable [RateScalar R]

theorem follows_self {b : Board R γ} (ha : b.Alike b) (hs : b.Synced)
    (hm : b.grid.field.Mirrored) : b.Follows b := by
  refine ⟨ha, hs, hm, rfl, rfl, .refl _, fun hc hc' _ hn => ?_⟩
  cases hc.symm.trans hc'
  exact hn

variable [Generator R γ]

theorem Follows.move {b c d : Board R γ} (h : b.Follows c) (hm : c.Moves d) : b.Follows d := by
  have hages := h.ages.trans hm.leadsTo.ages
  have hd := hm.alike h.alike
  -- Only a cell that was written since has another particle, and only a flush lets go of particles.
  have hkept : d.config = c.config ∧ d.registry.rules = c.registry.rules ∧
      ∀ {p cell cell' name}, c.grid.get? p = some cell → d.grid.get? p = some cell' →
        cell'.particle = cell.particle → c.registry.name? cell.particle = some name →
          d.registry.name? cell'.particle = some name := by
    rcases hm.resettled h.alike h.synced.covered with rfl | ⟨ps, hps⟩
    · refine ⟨rfl, rfl, fun {p cell cell' name} hc hc' he hn => ?_⟩
      obtain ⟨name', hn'⟩ := hd.named hc'
      have hn'' : c.registry.name? cell'.particle = some name' :=
        (Registry.name?_flush_eq_some_iff.mp hn').1
      rw [he] at hn''
      rw [hn', ← hn'', hn]
    · exact ⟨hps.config, hps.retains.rules, fun _ _ he hn => he ▸ hps.retains.name? hn⟩
  refine ⟨hd, hm.synced h.alike h.synced, hm.leadsTo.mirrored h.mirrored, hkept.1.trans h.config,
    hkept.2.1.trans h.rules, hages, fun {p cell cell' name} hc hc' hw hn => ?_⟩
  obtain ⟨mid, hmid, hold⟩ := h.ages.cell hc
  obtain ⟨new, hnew, hyoung⟩ := hm.leadsTo.ages.cell hmid
  cases hc'.symm.trans hnew
  have hle := hold.writes
  have hle' := hyoung.writes
  exact hkept.2.2 hmid hc' (hyoung.particle_eq (by omega)) (h.name? hc hmid (by omega) hn)

theorem Follows.passes {b c d : Board R γ} (h : b.Follows c) (hp : c.Passes d) : b.Follows d :=
  hp.invariant (fun hm hb => hb.move hm) h

variable [MessageReader R]

theorem Reachable.follows {b : Board R γ} (h : b.Reachable) : b.Follows b :=
  follows_self h.alike h.synced (mirrored_of_reachable h)

/-- The rules of a board are for its topology. -/
theorem Reachable.topology {b : Board R γ} (h : b.Reachable) :
    b.registry.rules.topology = b.topology := by
  obtain ⟨config, rules, random, a, hn, ha⟩ := h
  have hnew : a.Reachable := ⟨config, rules, random, a, hn, .refl⟩
  have hf := hnew.follows.passes ha.passes
  obtain ⟨-, htop, -⟩ := new_eq_ok.mp hn
  have hrules : a.registry.rules = rules := (keeps_new hn).rules
  rw [hf.rules, hrules, htop, Board.topology, hf.config, config_new hn]

end

/-- An attempt that asks another board tells its own address, and the name and the writes of its
cell. -/
theorem requested_of_step [Scalar R] [Generator R γ] {b c : Board R γ} (hb : b.Alike b) {random : γ}
    (h : step { b with random } = .ok (.remoteRequested, c)) :
    ∃ address q cell, c.journal.sent = b.journal.sent.push (address, .evolve q) ∧
      q.returnAddress = b.config.address ∧ b.grid.get? q.source = some cell ∧
      cell.writes = q.writes ∧ b.registry.name? cell.particle = some q.sourceState := by
  have heffect : b.Effect false .remoteRequested c := (effect_of_step h).of_grown (.refl b.registry)
  cases heffect with
  | quiet _ hr _ => exact absurd rfl hr
  | change ho => exact nomatch ho
  | request _ hrequest =>
    obtain ⟨registry, random', p, cell, d, remote, hg, hcell, -, rfl⟩ := hrequest
    obtain ⟨registry', hg', hr⟩ :=
      requestRemote_sends (b := { b with registry, random := random' }) hcell d remote
    obtain ⟨name, hn⟩ := hb.named hcell
    have hn' := ((hg.trans hg').retains hb.sound.arena).name? hn
    rw [hr]
    refine ⟨remote.address, _, cell, Journal.sent_send .., rfl, hcell, rfl, ?_⟩
    rw [Registry.name_of hn', hn]

/-- An answer is taken up as long as its cell was not written, and ignored otherwise. -/
theorem takes_reply [RateScalar R] [Generator R γ] {b c : Board R γ} (h : b.Follows c)
    (hd : b.registry.rules.Declared) {m : EvolveReply R} {cell : Cell}
    (hcell : b.grid.get? m.source = some cell) {name : String}
    (hn : b.registry.name? cell.particle = some name) (hw : cell.writes = m.writes)
    (hfits : Text.truncate c.registry.maxNameLen m.newState = m.newState) :
    ∃ d, c.handle (.reply m) = .ok d ∧
      (c.writes? m.source ≠ some m.writes → d = c) ∧
      (c.writes? m.source = some m.writes → c.particleName? m.source = some name ∧
        d.particleName? m.source = some m.newState ∧
        (m.newState = name → d = c) ∧
        (m.newState ≠ name → c.Rewritten m.source m.newState d ∧ d.random = c.random ∧
          d.journal.sent = c.journal.sent)) := by
  obtain ⟨cell', hcell', hage⟩ := h.ages.cell hcell
  have hwrites : c.writes? m.source = some cell'.writes := by
    rw [writes?, hcell', Option.map_some]
  rw [hwrites]
  by_cases hfresh : cell'.writes = m.writes
  · have hname := h.name? hcell hcell' (hfresh.trans hw.symm) hn
    have hshown : c.particleName? m.source = some name := by
      rw [particleName?, hcell', Option.map_some, Registry.name_of hname]
    by_cases hsame : m.newState = name
    · refine ⟨c, applyReply_same h.alike hcell' (hsame ▸ hname), fun _ => rfl, fun _ => ?_⟩
      exact ⟨hshown, hsame ▸ hshown, fun _ => rfl, absurd hsame⟩
    · have ht : c.registry.rules.Total := h.rules.symm ▸ hd.total
      obtain ⟨d, hreply, hputs, hrandom, hsent⟩ := applyReply_puts h.alike ht h.synced.covered
        h.mirrored hcell' hfresh hfits fun he => hsame (Option.some.inj (he.symm.trans hname))
      have hf := h.move (.handle (m := .reply m) hreply)
      have hrewritten := hputs.rewritten h.alike hf.alike h.synced hf.synced
        (Grid.contains_of_get? hcell')
      exact ⟨d, hreply, fun hne => absurd (congrArg some hfresh) hne, fun _ => ⟨hshown,
        hrewritten.shown, fun he => absurd he hsame, fun _ => ⟨hrewritten, hrandom, hsent⟩⟩⟩
  · exact ⟨c, applyReply_stale hcell' hfresh, fun _ => rfl,
      fun he => absurd (Option.some.inj he) hfresh⟩

theorem handle_evolve [Scalar R] [Generator R γ] {b c : Board R γ} {q : EvolveRequest R}
    {state : String} {energy : R} (h : b.evolveTarget q = .ok (state, energy, c)) :
    b.handle (.evolve q) = .ok
      { c with
        journal := c.journal.send q.returnAddress
          (.reply ⟨q.source, state, q.writes, energy⟩) } := by
  show (b.evolveTarget q >>= _) = _
  rw [h]
  rfl

variable [ShareScalar R] [Generator R γ] [MessageReader R]

/-- A request is answered once, and either nothing has changed or a drawn outcome has been put at
its target, with the name that the answer tells. -/
theorem answers_evolve {b : Board R γ} (h : b.Reachable) (hd : b.registry.rules.Declared)
    {q : EvolveRequest R}
    (hq : Text.truncate b.registry.maxNameLen q.sourceState = q.sourceState) :
    ∃ state energy c, b.handle (.evolve q) = .ok c ∧
      c.journal.sent =
        b.journal.sent.push (q.returnAddress, .reply ⟨q.source, state, q.writes, energy⟩) ∧
      Text.truncate b.registry.maxNameLen state = state ∧
      (b.Spared c ∧ state = q.sourceState ∧ energy = 0 ∨
        ∃ name outcomes o random, b.particleName? q.target = some name ∧
          b.registry.rules.pairOutcomes b.registry.maxNameLen q.sourceState q.dir name =
            .ok outcomes ∧
          outcomes.sample b.random = (some o, random) ∧ o.rule.isSome ∧ state = o.newSource ∧
          b.Rewritten q.target o.newTarget c) := by
  have hf := h.follows
  rcases evolveTarget_ok hf.alike hf.synced.covered hf.mirrored hd.probable h.topology q with
    ⟨registry, random, hgrows, he⟩ |
      ⟨name, outcomes, o, random, energy, c, hname, houtcomes, hsample, hrule, hfits, he, hputs,
        hsent⟩
  · have hc := hf.move (.handle (handle_evolve he))
    exact ⟨q.sourceState, 0, _, handle_evolve he, Journal.sent_send .., hq,
      Or.inl ⟨spared_of_grows hf.alike.sound hc.alike.sound hgrows _ (Journal.drawn_send ..)
        (Journal.notices_send ..), rfl, rfl⟩⟩
  · have hc := hf.move (.handle (handle_evolve he))
    have hin : b.grid.contains q.target = true := by
      obtain ⟨cell, hcell, -⟩ := Option.map_eq_some_iff.mp hname
      exact Grid.contains_of_get? hcell
    rw [hq] at houtcomes
    refine ⟨o.newSource, energy, _, handle_evolve he, ?_, hfits, Or.inr ⟨name, outcomes, o, random,
      hname, houtcomes, hsample, hrule, rfl, ?_⟩⟩
    · rw [← hsent]
      exact Journal.sent_send ..
    · exact (hputs.send _).rewritten hf.alike hc.alike hf.synced hc.synced hin

/-- An exchange between two boards that have room for the same names is all or nothing on each of
them, whatever comes between the request, its handling and that of the answer. -/
theorem exchange_all_or_nothing {l l₁ l₂ r : Board R γ} (hl : l.Reachable) (hr : r.Reachable)
    (hdl : l.registry.rules.Declared) (hdr : r.registry.rules.Declared)
    (hlen : l.config.maxNameLen = r.config.maxNameLen) {random : γ}
    (hstep : step { l with random } = .ok (.remoteRequested, l₁)) (hlater : l₁.Reaches l₂) :
    ∃ address q, l₁.journal.sent = l.journal.sent.push (address, .evolve q) ∧
      q.returnAddress = l.config.address ∧ l.particleName? q.source = some q.sourceState ∧
      l.writes? q.source = some q.writes ∧
      ∃ state energy r' l₃, r.handle (.evolve q) = .ok r' ∧
        r'.journal.sent =
          r.journal.sent.push (q.returnAddress, .reply ⟨q.source, state, q.writes, energy⟩) ∧
        (r.Spared r' ∧ state = q.sourceState ∧ energy = 0 ∨
          ∃ name outcomes o random', r.particleName? q.target = some name ∧
            r.registry.rules.pairOutcomes (max 1 r.config.maxNameLen) q.sourceState q.dir name =
              .ok outcomes ∧
            outcomes.sample r.random = (some o, random') ∧ o.rule.isSome ∧ state = o.newSource ∧
            r.Rewritten q.target o.newTarget r') ∧
        l₂.handle (.reply ⟨q.source, state, q.writes, energy⟩) = .ok l₃ ∧
        (l₂.writes? q.source ≠ some q.writes → l₃ = l₂) ∧
        (l₂.writes? q.source = some q.writes → l₂.particleName? q.source = some q.sourceState ∧
          l₃.particleName? q.source = some state ∧
          (state = q.sourceState → l₃ = l₂) ∧
          (state ≠ q.sourceState → l₂.Rewritten q.source state l₃ ∧ l₃.random = l₂.random ∧
            l₃.journal.sent = l₂.journal.sent)) := by
  obtain ⟨address, q, cell, hsent, haddress, hcell, hwrites, hname⟩ :=
    requested_of_step hl.alike hstep
  have hpasses : l.Passes l₁ := (Moves.draw random).passes.trans (Moves.step hstep).passes
  have hf := hl.follows.passes (hpasses.trans hlater.passes)
  have hbound : l₂.registry.maxNameLen = r.registry.maxNameLen := by
    rw [hf.synced.maxNameLen, hr.wellFormed.maxNameLen, hf.config, hlen]
  have hfits : Text.truncate r.registry.maxNameLen q.sourceState = q.sourceState := by
    rw [hr.wellFormed.maxNameLen, ← hlen, ← hl.wellFormed.maxNameLen]
    exact hl.alike.sound.bounded hname
  obtain ⟨state, energy, r', hevolve, hreply, hstate, hcases⟩ := answers_evolve hr hdr hfits
  obtain ⟨l₃, htake, hstale, hfresh⟩ := takes_reply (m := ⟨q.source, state, q.writes, energy⟩) hf
    hdl hcell hname hwrites (hbound.symm ▸ hstate)
  refine ⟨address, q, hsent, haddress, ?_, ?_, state, energy, r', l₃, hevolve, hreply, ?_, htake,
    hstale, hfresh⟩
  · rw [particleName?, hcell, Option.map_some, Registry.name_of hname]
  · rw [writes?, hcell, Option.map_some, hwrites]
  · rwa [← hr.wellFormed.maxNameLen]

/-- Two boards of one cell: the one asks, and the other takes up the question. -/
theorem exchange_all_or_nothing_of_request :
    ∃ (l l₁ r r' l₃ : Board Float RandomSource) (random : RandomSource)
        (q : EvolveRequest Float) (state : String) (energy : Float),
      l.Reachable ∧ r.Reachable ∧ l.registry.rules.Declared ∧ r.registry.rules.Declared ∧
      l.config.maxNameLen = r.config.maxNameLen ∧
      step { l with random } = .ok (.remoteRequested, l₁) ∧ r.handle (.evolve q) = .ok r' ∧
      l₁.handle (.reply ⟨q.source, state, q.writes, energy⟩) = .ok l₃ ∧
      (l₁.writes? q.source = some q.writes → l₃.particleName? q.source = some state) := by
  let records : RuleRecords Float :=
    ⟨[], [{ dir := some "n", source := some "_", target := some "_" }], []⟩
  have hread : ((Rulebook.ofRecords? .square4 records).toOption.any fun rules =>
      ((rules.activity "_").toOption.any fun rate => decide (¬ rate ≤ 0)) &&
        (SourceRules.ofName rules "_").toOption.any fun s =>
          (s.rates.sample (RandomSource.ofMix 0)).1.isSome) = true := by
    decide +kernel
  obtain ⟨rules, hrules, h⟩ := any_toOption.mp hread
  have hdeclared : rules.Declared := ⟨_, _, hrules⟩
  obtain ⟨hactive, hdrawn⟩ := Bool.and_eq_true_iff.mp h
  obtain ⟨rate, hrate, hactive⟩ := any_toOption.mp hactive
  obtain ⟨s, hs, hdrawn⟩ := any_toOption.mp hdrawn
  obtain ⟨d, hd⟩ := Option.isSome_iff_exists.mp hdrawn
  obtain ⟨l, l₁, hl, hdl, hlen, hstep⟩ := lone_requests hdeclared.total hrate
    (of_decide_eq_true hactive) hs (Prod.ext hd rfl)
  let far : BoardConfig := { width := 1, height := 1, topology := rules.topology }
  have hv : far.validate = .ok () := rfl
  obtain ⟨r, hr, hdr, hcr, -⟩ := declared_new (RandomSource.ofMix 0) hv hdeclared rfl
  have hlen : l.config.maxNameLen = r.config.maxNameLen := by rw [hlen, hcr]
  obtain ⟨_, q, -, -, -, -, state, energy, r', l₃, hevolve, -, -, htake, -, hfresh⟩ :=
    exchange_all_or_nothing hl hr (hdl ▸ hdeclared) (hdr ▸ hdeclared) hlen hstep .refl
  exact ⟨l, l₁, r, r', l₃, _, q, state, energy, hl, hr, hdl ▸ hdeclared, hdr ▸ hdeclared, hlen,
    hstep, hevolve, htake, fun h => (hfresh h).2.1⟩

end ParticleAutomaton.Board
