import ParticleAutomaton.Proofs.Shares

namespace ParticleAutomaton

namespace Piece

/-- A directive with a modulus of zero is none. -/
theorem modulus_of_directive {cs rest : List Char} {m d n : Nat}
    (h : directive? cs = some (.modulo m d n, rest)) : 0 < m := by
  unfold directive? at h
  split at h
  case h_10 =>
    split at h
    next m' r _ =>
      split at h
      next => exact nomatch h
      next hm =>
        obtain ⟨⟨⟨d', n'⟩, r'⟩, -, he⟩ := Option.map_eq_some_iff.mp h
        cases he
        exact Nat.pos_of_ne_zero hm
    next => exact nomatch h
  case h_8 | h_9 | h_11 =>
    obtain ⟨x, -, he⟩ := Option.map_eq_some_iff.mp h
    exact nomatch he
  all_goals exact nomatch h

theorem modulus_of_text {cs : List Char} {m d n : Nat} (h : .modulo m d n ∈ ofText cs) :
    0 < m := by
  fun_induction ofText cs with
  | case1 => exact nomatch h
  | case2 cs p rest hp ih =>
    rcases List.mem_cons.mp h with rfl | h
    · exact modulus_of_directive hp
    · exact ih h
  | case3 cs _ ih =>
    rcases List.mem_cons.mp h with he | h
    · exact nomatch he
    · exact ih h
  | case4 c cs _ ih =>
    rcases List.mem_cons.mp h with he | h
    · exact nomatch he
    · exact ih h

end Piece

/-- No directive of a template divides by zero. -/
def Template.Divides (t : Template) : Prop := ∀ {m d n}, .modulo m d n ∈ t.pieces → 0 < m

theorem Template.divides_parse (text : String) : (parse text).Divides := Piece.modulus_of_text

namespace TransformRule

variable {R : Type}

def templates (r : TransformRule R) : List Template :=
  [r.source, r.target, r.newSource, r.newTarget, r.verb]

theorem divides_of_ofRecord [Scalar R] {t : Topology} {record : TransformRecord R}
    {rule : TransformRule R} (h : ofRecord? t record = .ok rule) :
    ∀ template ∈ rule.templates, template.Divides := by
  obtain ⟨source, target, dir, -, -, rfl⟩ := ofRecord_eq_ok h
  simp [templates, Template.divides_parse]

end TransformRule

theorem Rulebook.Declared.divides {R : Type} [Scalar R] {b : Rulebook R} (h : b.Declared) :
    ∀ rule ∈ b.rules, ∀ template ∈ rule.templates, template.Divides := by
  obtain ⟨t, records, h⟩ := h
  obtain ⟨_, -, h⟩ := bind_eq_ok.mp h
  obtain ⟨rules, hrules, h⟩ := bind_eq_ok.mp h
  obtain ⟨_, -, h⟩ := bind_eq_ok.mp h
  cases h
  intro rule hrule
  obtain ⟨record, -, hrecord⟩ := mem_of_mapM hrules hrule
  exact TransformRule.divides_of_ofRecord hrecord

namespace NameMatch

variable {R : Type}

/-- A match can be tried on target after target: no try fails, templates can be expanded when one
is bound, and without it the match is what it was. -/
def Rebinds (m : NameMatch R) : Prop :=
  ∀ target, ∃ bound m', m.bindTarget target = .ok (bound, m') ∧ m'.unbindTarget = m ∧
    (bound = true → ∀ template, ∃ text, m'.expand template = .ok text)

theorem rebinds_of_source {m : NameMatch R} {s : SourceSlot} (hs : m.slots = .source s) :
    m.Rebinds := by
  intro target
  rcases bindTarget_ok hs target with ⟨-, hb⟩ | ⟨t, hb⟩
  · have hrest : m.unbindTarget = m := by
      unfold unbindTarget
      rw [hs]
    exact ⟨false, m, hb, hrest, nofun⟩
  · have hrest : unbindTarget { m with slots := .both s t } = m := by
      unfold unbindTarget
      simp only
      rw [← hs]
    exact ⟨true, _, hb, hrest, fun _ template => expand_ok rfl template⟩

end NameMatch

namespace SourceRules

variable {R : Type} [Scalar R]

/-- Rates are there for directions of the neighborhood only. -/
theorem dir_of_ofName {b : Rulebook R} {name : String} {s : SourceRules R}
    (h : ofName b name = .ok s) : ∀ d ∈ s.rates.items, d < b.topology.count := by
  obtain ⟨rates, hrates, h⟩ := bind_eq_ok.mp h
  cases h
  let Within (s : WeightedSampler Direction R) : Prop := ∀ d ∈ s.items, d < b.topology.count
  have hfold : Within .empty → Within rates := by
    refine foldlM_relates (r := fun s t => Within s → Within t) (fun _ => id)
      (fun h k hs => k (h hs)) ?_ hrates
    intro x hx s t hadd hs d hd
    rcases WeightedSampler.items_add hadd hd with rfl | hd
    · have hlt := List.snd_lt_of_mem_zipIdx hx
      simpa using hlt
    · exact hs d hd
  exact hfold nofun

theorem made_of_ofName {b : Rulebook R} {name : String} {s : SourceRules R}
    (h : ofName b name = .ok s) : s.rates.Made := by
  obtain ⟨rates, hrates, h⟩ := bind_eq_ok.mp h
  cases h
  exact foldlM_relates (r := fun s t => s.Made → t.Made) (fun _ => id) (fun h k hs => k (h hs))
    (fun _ _ _ _ hadd hs => hs.add hadd) hrates WeightedSampler.made_empty

/-- What is kept of the rules for a source lets all later tries go on. -/
structure Rests (s : SourceRules R) (t : Topology) : Prop where
  length : s.matched.length = t.count
  dir : ∀ d ∈ s.rates.items, d < t.count
  rebinds : ∀ ms ∈ s.matched, ∀ m ∈ ms, m.Rebinds

theorem rests_of_ofName {b : Rulebook R} {name : String} {s : SourceRules R}
    (h : ofName b name = .ok s) : s.Rests b.topology := by
  have hmatched := matched_of_ofName h
  refine ⟨?_, dir_of_ofName h, ?_⟩
  · rw [hmatched, List.length_map, List.length_range]
  · intro ms hms m hm
    rw [hmatched] at hms
    obtain ⟨d, -, rfl⟩ := List.mem_map.mp hms
    obtain ⟨slot, hslot⟩ := Rulebook.slots_sourceMatches hm
    exact NameMatch.rebinds_of_source hslot

end SourceRules

namespace Registry

variable {R γ : Type} [Scalar R] [Generator R γ]

/-- A direction that is drawn for a particle is one of the neighborhood. -/
theorem Sound.sampleDir_ok {r : Registry R} (h : r.Sound) (ht : r.rules.Total) {id : ParticleId}
    {name : String} (hn : r.name? id = some name) (g : γ) :
    ∃ s d r' g', SourceRules.ofName r.rules name = .ok s ∧ r.sampleDir id g = .ok (d, r', g') ∧
      r.Extends r' ∧ r'.Sound ∧ s.rates.sample g = (d, g') ∧
      ∀ dir, d = some dir → dir < r.rules.topology.count := by
  obtain ⟨s, hs⟩ := ht name
  have hagree := sampleDir_agree h hn g
  rw [hs] at hagree
  obtain ⟨⟨d, r', g'⟩, hx, hd, hg, hext, hsound⟩ := hagree.eq_ok
  have hdraw : s.rates.sample g = (d, g') := Prod.ext hd.symm hg.symm
  refine ⟨s, d, r', g', hs, hx, hext, hsound, hdraw, ?_⟩
  intro dir hdir
  have hdrawn : (s.rates.sample g).1 = some dir := by rw [hdraw, hdir]
  exact SourceRules.dir_of_ofName hs dir (WeightedSampler.mem_of_sample hdrawn)

end Registry

end ParticleAutomaton
