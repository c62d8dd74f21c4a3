import Mathlib
import ParticleAutomaton.Proofs.Exchanges
import ParticleAutomaton.Proofs.ItemTables
import ParticleAutomaton.Proofs.RateLevels
import ParticleAutomaton.Proofs.RuleMatches
import ParticleAutomaton.Proofs.TemplateScans

namespace ParticleAutomaton.Board

variable {R γ : Type} [ShareScalar R]

/-- What a board needs for operations to succeed: it is sound, and its rules are for its topology
and have no probability below zero. -/
structure Ready (b : Board R γ) : Prop where
  alike : b.Alike b
  synced : b.Synced
  mirrored : b.grid.field.Mirrored
  probable : b.registry.rules.Probable
  topology : b.registry.rules.topology = b.topology

theorem Ready.total {b : Board R γ} (h : b.Ready) : b.registry.rules.Total :=
  Rulebook.total_of_probs h.probable

theorem ready_new {config : BoardConfig} {rules : Rulebook R} {random : γ} {b : Board R γ}
    (h : new config rules random = .ok b) (hp : rules.Probable) : b.Ready := by
  have hrules : b.registry.rules = rules := (keeps_new h).rules
  have hmirrored : b.grid.field.Mirrored := by
    obtain ⟨filler, hg⟩ := grid_new h
    rw [hg]
    exact fun {bond} => Grid.mirrored_new _ _ _ bond
  obtain ⟨-, htop, -⟩ := new_eq_ok.mp h
  refine ⟨alike_new h, synced_new h, hmirrored, hrules.symm ▸ hp, ?_⟩
  rw [hrules, htop, Board.topology, config_new h]

theorem new_no_fault {config : BoardConfig} {rules : Rulebook R} {random : γ} {f : Fault}
    (hp : rules.Probable) : new config rules random ≠ .error (.fault f) := by
  intro hf
  by_cases hv : config.validate = .ok ()
  · by_cases ht : rules.topology = config.topology
    · obtain ⟨b, hb⟩ := new_ok random hv ht (Rulebook.total_of_probs hp)
      rw [hb] at hf
      exact nomatch hf
    · unfold new at hf
      rw [hv] at hf
      simp [ht, Except.mapError, bind, Except.bind] at hf
  · cases he : config.validate with
    | error e =>
      unfold new at hf
      rw [he] at hf
      exact nomatch hf
    | ok u => exact hv he

section

variable {b : Board R γ} (h : b.Ready)

include h

theorem Ready.set_ok (p : Point) (name : String) : ∃ s, b.set p name = .ok s := by
  unfold set
  split
  next => exact ⟨_, rfl⟩
  next =>
    obtain ⟨hknown, -⟩ := h.alike.intern name
    obtain ⟨-, hext, hn⟩ := h.alike.sound.intern name
    have htotal : (b.registry.intern name).2.rules.Total := hext.rules.symm ▸ h.total
    obtain ⟨⟨touched, c⟩, hc⟩ := write_ok hknown htotal hn p
    simp only
    rw [hc]
    exact ⟨_, rfl⟩

theorem Ready.applyReply_ok (m : EvolveReply R) : ∃ c, b.applyReply m = .ok c := by
  cases hc : b.grid.get? m.source with
  | none =>
    unfold applyReply
    rw [hc]
    exact ⟨b, rfl⟩
  | some cell =>
    by_cases hw : cell.writes = m.writes
    · by_cases he : (b.registry.intern m.newState).1 = cell.particle
      · unfold applyReply
        rw [hc]
        simp only [hw, ne_eq, not_true, if_false, if_pos he]
        exact ⟨_, rfl⟩
      · obtain ⟨c, hc, -⟩ := applyReply_fresh h.alike h.total hc hw he
        exact ⟨c, hc⟩
    · unfold applyReply
      rw [hc]
      simp only [ne_eq, hw, not_false_eq_true, if_true]
      exact ⟨b, rfl⟩

theorem Ready.restore_ok (s : Snapshot) : ∃ t, b.restore s = .ok t := by
  unfold restore
  split
  next => exact ⟨_, rfl⟩
  next =>
    split
    next => exact ⟨_, rfl⟩
    next =>
      simp only
      split
      next => exact ⟨_, rfl⟩
      next =>
        obtain ⟨ha, hext, -⟩ := alike_stage h.alike s.cells
        have hages := ages_stage b s.cells
        obtain ⟨registry, hr, -, hk, -⟩ := recount_ok ha.left
          (h.alike.twins.leftCounted.extends hext) ha.named_left hages.width hages.height
        have hr : recount b.grid (b.stage s.cells).1 (b.stage s.cells).2 = .ok registry := hr
        have htotal : registry.rules.Total := by
          rw [hk.rules, hext.rules]
          exact h.total
        obtain ⟨c, hc⟩ := refreshRates_ok
          (b := { b with grid := (b.stage s.cells).1, registry }) htotal (b.stage s.cells).1.points
        rw [hr, ok_bind, hc]
        exact ⟨_, rfl⟩

end

/-- What operations look up is where they look for it: points of the grid have a cell and a place
in the square of activities, and what is kept of the rules is complete. The arrays of the activities
and of all samplers that are kept have come to be, and are looked into, with no index outside. -/
structure InBounds (b : Board R γ) : Prop where
  cell : ∀ {p i}, b.grid.index? p = some i → i < b.grid.cells.size
  place : ∀ {p}, b.grid.contains p = true →
    ∃ x y, b.activity.place? p = some (x, y) ∧ x < b.activity.size ∧ y < b.activity.size
  levels : ∃ changes t,
    (RateLevels.covering b.config.width b.config.height >>= fun start => start.run changes) =
      .ok t ∧ t.Answers b.activity
  sources : ∀ {id particle s}, b.registry.get? id = some particle → particle.sources = some s →
    s.Rests b.topology
  transforms : ∀ {id particle} {d : Direction} {target : ParticleId} {sampler},
    b.registry.get? id = some particle → particle.transforms[(d, target)]? = some sampler →
      d < b.topology.count
  rates : ∀ {id particle s}, b.registry.get? id = some particle → particle.sources = some s →
    ∃ calls t, WeightedSampler.run .empty calls = .ok s.rates ∧
      ItemTable.run .empty calls = .ok t ∧ t.Answers s.rates
  outcomes : ∀ {id particle} {d : Direction} {target : ParticleId} {sampler},
    b.registry.get? id = some particle → particle.transforms[(d, target)]? = some sampler →
      ∃ calls t, WeightedSampler.run .empty calls = .ok sampler ∧
        ItemTable.run .empty calls = .ok t ∧ t.Answers sampler

theorem Ready.inBounds {b : Board R γ} (h : b.Ready) : b.InBounds := by
  refine ⟨Grid.index?_lt, ?_, ?_, ?_, ?_, ?_, ?_⟩
  · intro p hp
    obtain ⟨⟨x, y⟩, hplace⟩ := Option.isSome_iff_exists.mp (h.synced.covered p hp)
    obtain ⟨-, hx, hy⟩ := ActivityTree.place?_eq_some_iff.mp hplace
    exact ⟨x, y, hplace, hx, hy⟩
  · obtain ⟨start, hstart, changes, hchanges⟩ := h.synced.activity
    rw [hchanges]
    exact ⟨changes, RateLevels.answers_run hstart changes⟩
  · intro id particle s hparticle hs
    rw [← h.topology]
    exact SourceRules.rests_of_ofName ((h.alike.sound.fits hparticle).sources hs)
  · intro id particle d target sampler hparticle ht
    rw [← h.topology]
    exact ((h.alike.sound.fits hparticle).transforms ht).1
  · intro id particle s hparticle hs
    have hmade := SourceRules.made_of_ofName ((h.alike.sound.fits hparticle).sources hs)
    exact ItemTable.exists_answers hmade
  · intro id particle d target sampler hparticle ht
    obtain ⟨-, -, named, -, -, hr⟩ := (h.alike.sound.fits hparticle).transforms ht
    exact ItemTable.exists_answers hr.made

variable [Generator R γ]

theorem Ready.passes {b c : Board R γ} (h : b.Ready) (hp : b.Passes c) : c.Ready := by
  have hf : b.Follows c := (follows_self h.alike h.synced h.mirrored).passes hp
  refine ⟨hf.alike, hf.synced, hf.mirrored, hf.rules.symm ▸ h.probable, ?_⟩
  rw [hf.rules, h.topology, Board.topology, Board.topology, hf.config]

theorem Ready.move {b c : Board R γ} (h : b.Ready) (hm : b.Moves c) : c.Ready := h.passes hm.passes

section

variable {b : Board R γ} (h : b.Ready)

include h

theorem Ready.fill_ok (name : String) : ∃ c, b.fill name = .ok c := by
  refine foldlM_ok_while (P := Ready) (fun p _ c hc => ?_) h
  obtain ⟨⟨done, d⟩, hd⟩ := hc.set_ok p name
  exact ⟨d, by rw [hd]; rfl, hc.move (.set hd)⟩

theorem Ready.paint_ok (image : Image) : ∃ s, b.paint image = .ok s := by
  refine foldlM_ok_while (P := fun s : Nat × Board R γ => s.2.Ready) (fun p _ s hs => ?_) h
  simp only
  split
  next name _ =>
    obtain ⟨⟨done, d⟩, hd⟩ := hs.set_ok p name
    exact ⟨(s.1 + 1, d), by rw [hd]; rfl, hs.move (.set hd)⟩
  next => exact ⟨s, rfl, hs⟩

end

/-- What is drawn for two neighbors is proposed without fault. -/
theorem attemptAt_ok {b : Board R γ} (hb : b.Alike b) (hp : b.registry.rules.Probable) {p : Point}
    {cell : Cell} (hc : b.grid.get? p = some cell) {d : Direction}
    (hd : d < b.registry.rules.topology.count) : ∃ s, b.attemptAt p cell.particle d = .ok s := by
  unfold attemptAt
  simp only
  cases hn : b.grid.get? (p + b.topology.offset d) with
  | none =>
    simp only
    split
    next => exact ⟨_, rfl⟩
    next => exact ⟨_, rfl⟩
  | some target =>
    obtain ⟨name, hname⟩ := hb.named hc
    obtain ⟨targetName, htarget⟩ := hb.named hn
    obtain ⟨outcomes, o, registry, random, -, hdraw, hext, hsound, hout, -⟩ :=
      hb.sound.samplePair_ok hp hname htarget hd b.random
    simp only
    rw [hdraw, ok_bind]
    cases o with
    | none => exact ⟨_, rfl⟩
    | some o =>
      simp only
      split
      next => exact ⟨_, rfl⟩
      next =>
        have hlearnt : Alike { b with registry, random } { b with registry, random } :=
          (hb.learn ⟨hsound, hsound, hext, hext⟩).reseed random
        have htotal : registry.rules.Total := hext.rules.symm ▸ Rulebook.total_of_probs hp
        have hname' := hb.sound.name?_of_keeps hext.toKeeps hname
        have htarget' := hb.sound.name?_of_keeps hext.toKeeps htarget
        have hknown := hout o rfl
        have ev := UpdateEvent.alike_new (r := registry) (s := registry) p
          (p + b.topology.offset d) d ⟨_, hname', hname'⟩ ⟨_, htarget', htarget'⟩
          ⟨⟨_, hknown.source, hknown.source⟩, ⟨_, hknown.target, hknown.target⟩, rfl, rfl⟩
        have hmet := UpdateEvent.meets_new (b.topology.add_offset_ne d p) hc hn d o
        rcases propose_ok hlearnt htotal ev hmet rfl 0 with
          ⟨result, delta, registry', random', -, -, hpropose⟩ |
            ⟨delta, e', registry', random', c, -, -, -, -, hpropose⟩
        · rw [hpropose]
          exact ⟨_, rfl⟩
        · rw [hpropose]
          exact ⟨_, rfl⟩

section

variable {b : Board R γ} (h : b.Ready)

include h

theorem Ready.step_ok : ∃ s, b.step = .ok s := by
  unfold step
  simp only
  generalize b.activity.sample b.random = drawn
  split
  next => exact ⟨_, rfl⟩
  next p _ =>
    cases hc : b.grid.get? p with
    | none => exact ⟨_, rfl⟩
    | some cell =>
      obtain ⟨name, hname⟩ := h.alike.named hc
      obtain ⟨s, d, registry, random, -, hdraw, hext, hsound, -, hdir⟩ :=
        h.alike.sound.sampleDir_ok h.total hname drawn.2
      simp only
      rw [hdraw, ok_bind]
      cases d with
      | none => exact ⟨_, rfl⟩
      | some d =>
        have hlearnt : Alike { b with registry, random } { b with registry, random } :=
          (h.alike.learn ⟨hsound, hsound, hext, hext⟩).reseed random
        have hrules : registry.rules = b.registry.rules := hext.rules
        have hlt : d < registry.rules.topology.count := hrules.symm ▸ hdir d rfl
        exact attemptAt_ok hlearnt (hrules.symm ▸ h.probable) hc hlt

omit h in
theorem Ready.updateGo_ok {n : Nat} {stats : UpdateStats} {b : Board R γ} (h : b.Ready) :
    ∃ s, update.go n stats b = .ok s := by
  induction n generalizing stats b with
  | zero => exact ⟨_, rfl⟩
  | succ n ih =>
    obtain ⟨⟨o, c⟩, hc⟩ := h.step_ok
    unfold update.go
    rw [hc, ok_bind]
    exact ih (h.move (.step hc))

theorem Ready.update_ok (n : Nat) : ∃ s, b.update n = .ok s := h.updateGo_ok

theorem Ready.tick_ok : ∃ s, b.tick = .ok s := (h.move (.draw _)).update_ok _

theorem Ready.handle_ok (m : Message R) : ∃ c, b.handle m = .ok c := by
  cases m with
  | evolve m =>
    have hanswer : ∃ s, b.evolveTarget m = .ok s := by
      rcases evolveTarget_ok h.alike h.synced.covered h.mirrored h.probable h.topology m with
        ⟨registry, random, -, hevolve⟩ | ⟨-, -, o, -, energy, c, -, -, -, -, -, hevolve, -⟩
      · exact ⟨_, hevolve⟩
      · exact ⟨_, hevolve⟩
    obtain ⟨⟨state, energy, c⟩, hevolve⟩ := hanswer
    unfold handle
    simp only
    rw [hevolve]
    exact ⟨_, rfl⟩
  | reply m => exact h.applyReply_ok m

theorem Ready.handleText_ok [MessageReader R] (text : String) : ∃ c, b.handleText text = .ok c := by
  unfold handleText
  split
  next m _ => exact h.handle_ok m
  next => exact ⟨b, rfl⟩

end

variable [MessageReader R]

theorem Reachable.ready {b : Board R γ} (h : b.Reachable) (hp : b.registry.rules.Probable) :
    b.Ready :=
  ⟨h.alike, h.synced, mirrored_of_reachable h, hp, h.topology⟩

theorem Ready.run_ok {b : Board R γ} (h : b.Ready) (op : Operation R) : ∃ s, op.run b = .ok s := by
  cases op with
  | set p name => exact exists_map_ok (h.set_ok p name) _
  | fill name => exact exists_map_ok (h.fill_ok name) _
  | addBond bond => exact ⟨_, rfl⟩
  | removeBonds p => exact ⟨_, rfl⟩
  | connect p cell => exact ⟨_, rfl⟩
  | step => exact exists_map_ok h.step_ok _
  | update n => exact exists_map_ok (h.update_ok n) _
  | tick => exact exists_map_ok h.tick_ok _
  | handle m => exact exists_map_ok (h.handle_ok m) _
  | handleText text => exact exists_map_ok (h.handleText_ok text) _
  | restore snapshot => exact exists_map_ok (h.restore_ok snapshot) _
  | paint image => exact exists_map_ok (h.paint_ok image) _
  | flush => exact ⟨_, rfl⟩

theorem Ready.runAll_ok {b : Board R γ} (h : b.Ready) (ops : List (Operation R)) :
    ∃ answers c, Operation.runAll b ops = .ok (answers, c) ∧ c.Ready := by
  induction ops generalizing b with
  | nil => exact ⟨[], b, rfl, h⟩
  | cons op ops ih =>
    obtain ⟨⟨answer, c⟩, hc⟩ := h.run_ok op
    obtain ⟨answers, d, hd, hready⟩ := ih (h.passes (passes_of_run hc))
    refine ⟨answer :: answers, d, ?_, hready⟩
    rw [Operation.runAll, hc, ok_bind]
    simp only
    rw [hd]
    rfl

/-- Rules that were accepted never lead to a fault. A new board is made or its configuration is
refused, all operations on it succeed in any order and with any draws, and afterwards all that they
look up is there. No text of a template is read beyond its end. -/
theorem runs_without_fault {rules : Rulebook R} (h : rules.Declared) (config : BoardConfig)
    (random : γ) :
    (∀ f, new config rules random ≠ .error (.fault f)) ∧
    (config.validate = .ok () → rules.topology = config.topology →
      ∃ b, new config rules random = .ok b) ∧
    (∀ rule ∈ rules.rules, ∀ template ∈ rule.templates, template.Divides) ∧
    (∀ text, Template.scan text = .ok (.parse text)) ∧
    ∀ b, new config rules random = .ok b → ∀ ops : List (Operation R),
      ∃ answers c, Operation.runAll b ops = .ok (answers, c) ∧ c.InBounds := by
  refine ⟨fun f => new_no_fault h.probable, fun hv ht => new_ok random hv ht h.total, h.divides,
    Template.scan_eq, ?_⟩
  intro b hb ops
  have hready : b.Ready := ready_new hb h.probable
  obtain ⟨answers, c, hc, hready⟩ := hready.runAll_ok ops
  exact ⟨answers, c, hc, hready.inBounds⟩

/-- A rule that counts to three, and a run in which its matches are tried, kept and let go. -/
theorem runs_without_fault_of_counter :
    ∃ (rules : Rulebook Float) (b c : Board Float RandomSource) (answers : List Answer),
      rules.Declared ∧ new { width := 2, height := 1 } rules (RandomSource.ofMix 0) = .ok b ∧
      Operation.runAll b [.set ⟨0, 0⟩ "a1", .addBond ⟨⟨0, 0⟩, ⟨1, 0⟩, "k"⟩, .update 3,
        .removeBonds ⟨1, 0⟩, .flush, .tick] = .ok (answers, c) ∧ c.InBounds := by
  let records : RuleRecords Float :=
    ⟨[], [{ source := some "a([0-9])", target := some "_", newSource := some "a$%3+.1" }], []⟩
  have hread : ((Rulebook.ofRecords? .square4 records).toOption.any fun _ => true) = true := by
    decide +kernel
  obtain ⟨rules, hrules, -⟩ := any_toOption.mp hread
  have hdeclared : rules.Declared := ⟨_, _, hrules⟩
  obtain ⟨-, hnew, -, -, hruns⟩ :=
    runs_without_fault hdeclared { width := 2, height := 1 } (RandomSource.ofMix 0)
  obtain ⟨b, hb⟩ := hnew rfl (Rulebook.topology_of_ofRecords hrules)
  obtain ⟨answers, c, hc, hbounds⟩ := hruns b hb [.set ⟨0, 0⟩ "a1",
    .addBond ⟨⟨0, 0⟩, ⟨1, 0⟩, "k"⟩, .update 3, .removeBonds ⟨1, 0⟩, .flush, .tick]
  exact ⟨rules, b, c, answers, hdeclared, hb, hc, hbounds⟩

end ParticleAutomaton.Board
