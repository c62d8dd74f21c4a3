import ParticleAutomaton.Proofs.LiteralStarts
import ParticleAutomaton.Proofs.RuleUses

namespace ParticleAutomaton

namespace NamePattern

open Regex

/-- A name that a pattern accepts starts with the literal start of its text. -/
theorem literalStart_of_accepts {text : String} (hdrops : ¬ DropsStart text.toList)
    {p : NamePattern} (hp : parse? text = some p) {name : String} (h : p.accepts name = true) :
    literalStart text.toList <+: name.toList := by
  by_cases hne : literalStart text.toList = []
  · rw [hne]
    exact List.nil_prefix
  · obtain ⟨r, hr, rfl⟩ := Option.map_eq_some_iff.mp hp
    obtain ⟨hr, -⟩ := Option.filter_eq_some_iff.mp hr
    rw [Regex.parse?_eq] at hr
    obtain ⟨e, he, hr⟩ := Option.bind_eq_some_iff.mp hr
    obtain ⟨-, hr⟩ := Option.ite_none_right_eq_some.mp hr
    cases hr
    obtain ⟨x, y, hx, hxy⟩ := (isMatch_ofRegex _ _).mp h
    obtain ⟨hbefore, hstart⟩ := literalStart_prefix he hne hdrops hxy
    -- The pattern is anchored, so it reads the name from its start on.
    rcases Cursor.eq_or_before hx with rfl | hlater
    · exact hstart
    · rw [Option.isNone_iff_eq_none.mp hbefore] at hlater
      exact nomatch hlater

-- The last of two repetitions lets the character in front be left out.
example : (parse? "ab+*").any (·.accepts "a") = true ∧
    ¬ literalStart "ab+*".toList <+: "a".toList := by decide +kernel

theorem groups?_isSome (p : NamePattern) (name : String) :
    (p.groups? name).isSome = p.accepts name := by
  unfold groups? captures? accepts Automaton.isMatch
  rw [Option.isSome_map, Option.isSome_map]

end NamePattern

variable {R : Type}

theorem NameMatch.sourceSlot?_isSome (rule : DirectedRule R) (name : String) :
    (sourceSlot? rule name).isSome = true ↔
      rule.start.toList <+: name.toList ∧ ∃ p, rule.source = some p ∧ p.accepts name = true := by
  unfold sourceSlot? DirectedRule.mayMatch
  rw [← List.isPrefixOf_iff_prefix]
  cases rule.source with
  | none => simp
  | some p =>
    have hgroups := p.groups?_isSome name
    cases hfront : rule.start.toList.isPrefixOf name.toList with
    | false => simp
    | true =>
      cases hfound : p.groups? name with
      | none =>
        rw [hfound] at hgroups
        simp [hfound, ← hgroups]
      | some groups =>
        rw [hfound] at hgroups
        simp [hfound, ← hgroups]

namespace Rulebook

open Regex

variable [Scalar R] {t : Topology} {records : RuleRecords R} {b : Rulebook R}

theorem exists_sourceMatch (hb : ofRecords? t records = .ok b) {d : Direction} (hd : d < t.count)
    {rule : TransformRule R} (hr : rule ∈ b.rules) (happlies : rule.appliesTo d = true)
    (name : String) :
    (∃ m ∈ b.sourceMatches name d, m.rule = .ofRule rule t d) ↔
      (NameMatch.sourceSlot? (.ofRule rule t d) name).isSome = true := by
  have hdirected : DirectedRule.ofRule rule t d ∈ b.directedRules d := by
    rw [directedRules_of_ofRecords hb hd, topology_of_ofRecords hb]
    exact List.mem_map_of_mem (List.mem_filter.mpr ⟨hr, happlies⟩)
  unfold sourceMatches
  rw [Option.isSome_iff_exists]
  constructor
  · rintro ⟨m, hm, he⟩
    obtain ⟨directed, -, hm⟩ := List.mem_filterMap.mp hm
    obtain ⟨s, hs, rfl⟩ := Option.map_eq_some_iff.mp hm
    exact ⟨s, he ▸ hs⟩
  · rintro ⟨s, hs⟩
    exact ⟨⟨_, .source s⟩, List.mem_filterMap.mpr ⟨_, hdirected, congrArg _ hs⟩, rfl⟩

/-- A rule is among those for a name if its pattern accepts the name and the name starts with the
literal start of the pattern. Any name that is accepted does so, as long as no repetition lets the
literal start be left out. -/
theorem sourceMatches_iff_accepts (hb : ofRecords? t records = .ok b) {d : Direction}
    (hd : d < t.count) {rule : TransformRule R} (hr : rule ∈ b.rules) (hstart : rule.start = none)
    (happlies : rule.appliesTo d = true) (name : String) :
    let text := rule.source.expandPattern (Context.ofDirection t d)
    ((∃ m ∈ b.sourceMatches name d, m.rule = .ofRule rule t d) ↔
      literalStart text.toList <+: name.toList ∧
        ∃ p, NamePattern.parse? text = some p ∧ p.accepts name = true) ∧
    (¬ DropsStart text.toList →
      ((∃ m ∈ b.sourceMatches name d, m.rule = .ofRule rule t d) ↔
        ∃ p, NamePattern.parse? text = some p ∧ p.accepts name = true) ∧
      ∀ p, NamePattern.parse? text = some p → p.accepts name = true →
        literalStart text.toList <+: name.toList) := by
  intro text
  have hlist : (DirectedRule.ofRule rule t d).start.toList = literalStart text.toList := by
    show (rule.start.getD (String.ofList (literalStart text.toList))).toList = _
    rw [hstart]
    exact String.toList_ofList
  have hmatch := exists_sourceMatch hb hd hr happlies name
  rw [NameMatch.sourceSlot?_isSome, hlist] at hmatch
  refine ⟨hmatch, fun hdrops => ?_⟩
  have hfront (p : NamePattern) (hp : NamePattern.parse? text = some p)
      (h : p.accepts name = true) : literalStart text.toList <+: name.toList :=
    NamePattern.literalStart_of_accepts hdrops hp h
  refine ⟨?_, hfront⟩
  rw [hmatch]
  refine and_iff_right_of_imp ?_
  rintro ⟨p, hp, h⟩
  exact hfront p hp h

/-- Behind a repetition that is not left out the literal start stays in full. -/
theorem sourceMatches_iff_accepts_of_repeated :
    ∃ (records : RuleRecords Float) (b : Rulebook Float) (rule : TransformRule Float),
      ofRecords? .square4 records = .ok b ∧ rule ∈ b.rules ∧ rule.start = none ∧
        rule.appliesTo 0 = true ∧
        ¬ DropsStart (rule.source.expandPattern (Context.ofDirection .square4 0)).toList ∧
        literalStart (rule.source.expandPattern (Context.ofDirection .square4 0)).toList =
          ['a', 'b'] ∧
        (∃ m ∈ b.sourceMatches "abb" 0, m.rule = .ofRule rule .square4 0) ∧
        ¬ ∃ m ∈ b.sourceMatches "a" 0, m.rule = .ofRule rule .square4 0 := by
  let records : RuleRecords Float :=
    ⟨[], [{ source := some "ab+", target := some "x" }], []⟩
  have hread : ((ofRecords? .square4 records).toOption.any fun b => b.rules.any fun rule =>
      rule.start.isNone && rule.appliesTo 0 &&
        rule.source.expandPattern (Context.ofDirection .square4 0) == "ab+") = true := by
    decide +kernel
  obtain ⟨b, hb, hread⟩ := any_toOption.mp hread
  obtain ⟨rule, hr, hrule⟩ := List.any_eq_true.mp hread
  obtain ⟨hrule, htext⟩ := Bool.and_eq_true_iff.mp hrule
  obtain ⟨hstart, happlies⟩ := Bool.and_eq_true_iff.mp hrule
  have htext := beq_iff_eq.mp htext
  have hstart := Option.isNone_iff_eq_none.mp hstart
  have hdrops : ¬ DropsStart "ab+".toList := by
    have hbehind : Builder.behindGroup? (NamePattern.anchored "ab+".toList).length {}
        (NamePattern.anchored "ab+".toList) = some ['$'] := by decide +kernel
    rintro ⟨-, hplus | ⟨rest, hrest, hnone⟩⟩
    · cases hplus with
      | more hmore => cases hmore
    · rw [hbehind] at hrest
      cases hrest
      cases hnone
  have hmatches (name : String) : (∃ m ∈ b.sourceMatches name 0, m.rule = .ofRule rule .square4 0) ↔
      (NamePattern.parse? "ab+").any (·.accepts name) = true := by
    have hiff := ((sourceMatches_iff_accepts hb (d := 0) (by decide) hr hstart happlies name).2
      (htext ▸ hdrops)).1
    rw [hiff, htext, Option.any_eq_true]
  refine ⟨records, b, rule, hb, hr, hstart, happlies, htext ▸ hdrops, ?_, ?_, ?_⟩
  · rw [htext]
    decide
  · rw [hmatches]
    decide +kernel
  · rw [hmatches]
    decide +kernel

end Rulebook

end ParticleAutomaton
