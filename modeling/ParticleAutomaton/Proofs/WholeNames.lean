import ParticleAutomaton.Proofs.OuterGroups
import ParticleAutomaton.Proofs.Searches
import ParticleAutomaton.Regex.NamePattern

namespace ParticleAutomaton

namespace Regex

/-- The expression that a text stands for, with the depth of its parts. -/
def node? (cs : List Char) : Option Node := (Builder.finished? cs.length {} cs).map Builder.body

theorem parse?_eq (cs : List Char) :
    parse? cs = (node? cs).bind fun e => if e.depth ≤ maxDepth then some e.regex else none := by
  unfold parse? node? Builder.finished?
  cases Builder.steps? cs.length {} cs with
  | none => rfl
  | some b =>
    cases hb : b.levels with
    | nil => simp [Option.filter_some, hb]
    | cons level levels => simp [Option.filter_some, hb]

/-- A parenthesis in the text closes a group that the text has not opened. -/
def closesOuter (cs : List Char) : Bool := Builder.closesOuter cs.length {} cs

theorem closesOuter_of_node? {cs : List Char} {e : Node} (h : node? cs = some e) :
    closesOuter cs = false := by
  cases hcloses : closesOuter cs with
  | false => rfl
  | true =>
    rw [node?, Builder.finished?, Builder.steps?_of_closesOuter hcloses] at h
    cases h

example : closesOuter "a)|(?:b".toList = true := by decide

/-- The text ends in a comment: what stands behind it makes no difference. -/
def HidesEnding (cs : List Char) : Prop :=
  Builder.steps? (cs ++ ending).length {} (cs ++ ending) = Builder.steps? cs.length {} cs

example : HidesEnding "(?x)a #c".toList := by rfl

/-- An expression for whole texts. -/
def Node.between (e : Node) : Node :=
  ⟨sequence [.anchor .textStart, e.regex, .anchor .textEnd], e.depth + 2, false⟩

namespace Builder

theorem steps?_fuel {b : Builder} {n m : Nat} {cs : List Char} (hn : cs.length ≤ n)
    (hm : cs.length ≤ m) : steps? n b cs = steps? m b cs := by
  induction n generalizing b m cs with
  | zero =>
    have hcs := List.length_eq_zero_iff.mp (Nat.le_zero.mp hn)
    rw [hcs, steps?_nil (skip_nil _), steps?_nil (skip_nil _)]
  | succ n ih =>
    cases hcs : skip b.flags.verbose cs with
    | nil => rw [steps?_nil hcs, steps?_nil hcs]
    | cons c ds =>
      have hlength := (skip_suffix b.flags.verbose cs).length_le
      rw [hcs, List.length_cons] at hlength
      obtain ⟨m, rfl⟩ : ∃ k, m = k + 1 := ⟨m - 1, by omega⟩
      rw [steps?_cons hcs, steps?_cons hcs]
      refine Option.bind_congr fun z hz => ?_
      have hshort := ((b.tails_step? c).suffix hz).length_le
      exact ih (by omega) (by omega)

/-- The group that an anchored pattern puts around the text. -/
def anchorLevel : Level := ⟨[], [⟨.anchor .textStart, 0, false⟩], {}, none⟩

theorem steps?_anchored (n : Nat) (cs : List Char) :
    steps? (n + 2) {} (NamePattern.anchored cs) =
      steps? n (raise anchorLevel {}) (cs ++ ending) := by
  have hanchored : NamePattern.anchored cs = '^' :: '(' :: '?' :: ':' :: (cs ++ ending) := by
    simp [NamePattern.anchored, ending]
  rw [hanchored]
  rfl

theorem body_closed (b : Builder) : (b.closed anchorLevel).body = b.body.between := by
  have hdepth : max (max (max 0 0) (b.body.depth + 1)) 0 + 1 = b.body.depth + 2 := by omega
  exact congrArg (Node.mk _ · false) hdepth

end Builder

theorem node?_anchored {cs : List Char} (h : closesOuter cs = false) (w : Node) :
    node? (NamePattern.anchored cs) = some w ↔
      ∃ e, node? cs = some e ∧ ¬HidesEnding cs ∧ e.between = w := by
  have hlength : (NamePattern.anchored cs).length = cs.length + 4 + 2 := by
    simp [NamePattern.anchored]
  have hmore : (cs ++ ending).length ≤ cs.length + 4 := by simp [ending]
  have hencloses := Builder.encloses Builder.anchorLevel (Nat.le_refl cs.length) hmore h
  have hfinished : Builder.finished? (NamePattern.anchored cs).length {} (NamePattern.anchored cs) =
      (Builder.steps? (cs.length + 4) (Builder.raise Builder.anchorLevel {}) (cs ++ ending)).filter
        fun b => b.levels.isEmpty := by
    rw [hlength, Builder.finished?, Builder.steps?_anchored]
  have hfuel := Builder.steps?_fuel (b := {}) (Nat.le_refl (cs ++ ending).length) hmore
  unfold node?
  rw [hfinished, HidesEnding, hfuel]
  constructor
  · intro hw
    obtain ⟨b', hb', rfl⟩ := Option.map_eq_some_iff.mp hw
    obtain ⟨b, hb, hlonger, rfl⟩ := (hencloses b').mp hb'
    refine ⟨b.body, by rw [Builder.finished?, hb]; rfl, ?_, b.body_closed.symm⟩
    rw [(Option.filter_eq_some_iff.mp hb).1]
    exact hlonger
  · rintro ⟨e, he, hhides, rfl⟩
    obtain ⟨b, hb, rfl⟩ := Option.map_eq_some_iff.mp he
    rw [(Option.filter_eq_some_iff.mp hb).1] at hhides
    rw [(hencloses _).mpr ⟨b, hb, hhides, rfl⟩, Option.map_some, Builder.body_closed]

/-- The whole text is one that the expression is for. -/
def LeadsThrough (e : Regex) (text : List Char) : Prop :=
  ∃ last, e.Leads ⟨none, text⟩ ⟨last, []⟩

theorem leads_between (e : Node) (text : List Char) :
    (∃ x y, Cursor.Onwards ⟨none, text⟩ x ∧ e.between.regex.Leads x y) ↔
      e.regex.LeadsThrough text := by
  simp only [Node.between, leads_sequence, LeadsAll]
  constructor
  · rintro ⟨x, y, hx, x', ⟨hstart, rfl⟩, ⟨last, rest⟩, he, y', ⟨hend, rfl⟩, -⟩
    have hrest : rest = [] := by
      cases rest with
      | nil => rfl
      | cons c rest => cases hend
    rcases Cursor.eq_or_before hx with rfl | hx
    · exact ⟨last, hrest ▸ he⟩
    · have hnone : x.before = none := Option.isNone_iff_eq_none.mp hstart
      rw [hnone] at hx
      cases hx
  · rintro ⟨last, h⟩
    refine ⟨_, _, .refl, _, ⟨rfl, rfl⟩, _, h, _, ⟨rfl, rfl⟩, rfl⟩

end Regex

namespace NamePattern

open Regex

theorem parse?_eq_some {t : String} (h : closesOuter t.toList = false) {p : NamePattern} :
    parse? t = some p ↔
      ∃ e, node? t.toList = some e ∧ ¬HidesEnding t.toList ∧ e.depth + 2 ≤ maxDepth ∧
        e.between.regex.fits = true ∧
        ⟨t, .ofRegex e.between.regex, e.between.regex.groupCount⟩ = p := by
  unfold parse?
  rw [Option.map_eq_some_iff, Regex.parse?_eq]
  constructor
  · rintro ⟨r, hr, rfl⟩
    obtain ⟨hr, hfits⟩ := Option.filter_eq_some_iff.mp hr
    obtain ⟨w, hw, hr⟩ := Option.bind_eq_some_iff.mp hr
    obtain ⟨e, he, hhides, rfl⟩ := (node?_anchored h w).mp hw
    obtain ⟨hdepth, hregex⟩ := Option.ite_none_right_eq_some.mp hr
    cases hregex
    exact ⟨e, he, hhides, hdepth, hfits, rfl⟩
  · rintro ⟨e, he, hhides, hdepth, hfits, rfl⟩
    refine ⟨e.between.regex, Option.filter_eq_some_iff.mpr ⟨?_, hfits⟩, rfl⟩
    rw [(node?_anchored h _).mpr ⟨e, he, hhides, rfl⟩, Option.bind_some]
    exact if_pos hdepth

/-- A text that closes no group but its own is a pattern for names if it is an expression that does
not end in a comment and is not too large within the anchors. Such a pattern accepts just the names
that the expression is for as a whole. -/
theorem accepts_whole_names (t : String) (h : closesOuter t.toList = false) :
    ((parse? t).isSome = true ↔ ∃ e, node? t.toList = some e ∧ ¬HidesEnding t.toList ∧
        e.depth + 2 ≤ maxDepth ∧ e.between.regex.fits = true) ∧
      ∀ p, parse? t = some p → ∃ e, Regex.parse? t.toList = some e ∧
        ∀ name, p.accepts name = true ↔ e.LeadsThrough name.toList := by
  constructor
  · rw [Option.isSome_iff_exists]
    constructor
    · rintro ⟨p, hp⟩
      obtain ⟨e, he, hhides, hdepth, hfits, -⟩ := (parse?_eq_some h).mp hp
      exact ⟨e, he, hhides, hdepth, hfits⟩
    · rintro ⟨e, he, hhides, hdepth, hfits⟩
      exact ⟨_, (parse?_eq_some h).mpr ⟨e, he, hhides, hdepth, hfits, rfl⟩⟩
  · intro p hp
    obtain ⟨e, he, -, hdepth, -, rfl⟩ := (parse?_eq_some h).mp hp
    refine ⟨e.regex, ?_, fun name => ?_⟩
    · rw [Regex.parse?_eq, he]
      exact if_pos (Nat.le_trans (Nat.le_add_right _ _) hdepth)
    · exact (isMatch_ofRegex _ _).trans (leads_between e name.toList)

theorem accepts_whole_names_of_choice :
    (parse? "ab|cd").isSome = true ∧
      ∀ p, parse? "ab|cd" = some p → ∃ e, Regex.parse? "ab|cd".toList = some e ∧
        ∀ name, p.accepts name = true ↔ e.LeadsThrough name.toList :=
  ⟨by decide +kernel, (accepts_whole_names "ab|cd" (by decide)).2⟩

end NamePattern

end ParticleAutomaton
