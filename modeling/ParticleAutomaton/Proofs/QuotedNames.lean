import ParticleAutomaton.Proofs.LiteralStarts
import ParticleAutomaton.Rules.Appearance

namespace ParticleAutomaton

namespace Regex

open literalStart (isMark)

/-- A pattern that writes each character of a name as itself, or behind a backslash. -/
inductive Spells : List Char → List Char → Prop
  | nil : Spells [] []
  | plain {c : Char} {cs ds : List Char} (hc : isMark c = false) (h : Spells cs ds) :
    Spells (c :: cs) (c :: ds)
  | quoted {c : Char} {cs ds : List Char} (hc : isPatternMark c = true) (h : Spells cs ds) :
    Spells ('\\' :: c :: cs) (c :: ds)

section

variable {cs ds cs' ds' : List Char}

theorem isMark_of_not_isPatternMark {c : Char} (hc : isPatternMark c = false) :
    isMark c = false := by
  simp_all [isMark, isPatternMark]

theorem Spells.append (h : Spells cs ds) (h' : Spells cs' ds') :
    Spells (cs ++ cs') (ds ++ ds') := by
  induction h with
  | nil => exact h'
  | plain hc _ ih => exact .plain hc ih
  | quoted hc _ ih => exact .quoted hc ih

theorem spells_quoteChars (ds : List Char) : Spells (quoteChars ds) ds := by
  induction ds with
  | nil => exact .nil
  | cons d ds ih =>
    rw [quoteChars, List.flatMap_cons]
    cases hd : isPatternMark d with
    | false => exact .plain (isMark_of_not_isPatternMark hd) ih
    | true => exact .quoted hd ih

theorem spells_self (h : ∀ c ∈ ds, isMark c = false) : Spells ds ds := by
  induction ds with
  | nil => exact .nil
  | cons d ds ih =>
    exact .plain (h d (List.mem_cons_self ..)) (ih fun c hc => h c (List.mem_cons_of_mem d hc))

/-- The text of a template and its pattern go through the pieces side by side. -/
theorem spells_expandPatternChars {t : Template} (ctx : Context)
    (h : ∀ c, .literal c ∈ t.pieces → isMark c = false) :
    Spells (t.expandPatternChars ctx) (t.expandChars ctx) := by
  unfold Template.expandPatternChars Template.expandChars
  generalize t.pieces = ps at h
  induction ps with
  | nil => exact .nil
  | cons p ps ih =>
    have hrest := ih fun c hc => h c (List.mem_cons_of_mem p hc)
    rw [List.flatMap_cons, List.flatMap_cons]
    refine Spells.append ?_ hrest
    cases p with
    | literal c => exact .plain (h c (List.mem_cons_self ..)) .nil
    | _ => exact spells_quoteChars _

namespace Builder

variable {b : Builder}

theorem step?_quoted (hflags : b.flags = {}) {c : Char} (hc : isPatternMark c = true)
    (cs : List Char) : b.step? ('\\' :: c :: cs) = some (b.read [c], cs) := by
  have hescape : Regex.escape? b.flags.verbose (c :: cs) = some (.char c false, cs) := by
    rw [hflags]
    simp only [isPatternMark, List.contains_eq_mem, List.mem_cons, List.not_mem_nil, or_false,
      decide_eq_true_eq] at hc
    rcases hc with rfl | rfl | rfl | rfl | rfl | rfl | rfl | rfl | rfl | rfl | rfl | rfl | rfl |
      rfl | rfl | rfl | rfl | rfl <;> rfl
  have hliteral : b.escape? (.char c false) = some (b.read [c]) := by
    unfold escape? literal
    rw [hflags]
    rfl
  show ((Regex.escape? b.flags.verbose (c :: cs)).bind fun z => (b.escape? z.1).map (·, z.2)) = _
  rw [hescape, Option.bind_some, hliteral]
  rfl

/-- The reader takes one step for each character of the name, in whichever way it is written. -/
theorem steps?_spelled (hflags : b.flags = {}) (h : Spells cs ds) (rest : List Char) :
    steps? (cs ++ rest).length b (cs ++ rest) = steps? rest.length (b.read ds) rest := by
  induction h generalizing b with
  | nil => rfl
  | @plain c cs ds hc _ ih =>
    have hskip : Regex.skip b.flags.verbose (c :: (cs ++ rest)) = c :: (cs ++ rest) := by
      rw [hflags]
      rfl
    have hread := ih (b := b.read [c]) hflags
    rw [List.cons_append, List.length_cons, steps?_cons hskip, step?_plain hflags hc,
      Option.bind_some, hread, read_cons]
  | @quoted c cs ds hc _ ih =>
    have hskip : Regex.skip b.flags.verbose ('\\' :: c :: (cs ++ rest)) =
        '\\' :: c :: (cs ++ rest) := by
      rw [hflags]
      rfl
    have hread := ih (b := b.read [c]) hflags
    have hfuel : (cs ++ rest).length ≤ (c :: (cs ++ rest)).length := Nat.le_succ _
    rw [List.cons_append, List.cons_append, List.length_cons, steps?_cons hskip,
      step?_quoted hflags hc, Option.bind_some, steps?_fuel hfuel (Nat.le_refl _), hread, read_cons]

theorem depth_read (ds : List Char) : (({} : Builder).read ds).body.depth ≤ 1 := by
  have hdepths (es : List Char) :
      ((es.map fun c => (⟨.text [c], 0, false⟩ : Node)).map Node.depth).foldl max 0 = 0 := by
    induction es with
    | nil => rfl
    | cons _ _ ih => exact ih
  show (Node.ofItems ((ds.map fun c => (⟨.text [c], 0, false⟩ : Node)).reverse ++ [])).depth ≤ 1
  rw [List.append_nil, ← List.map_reverse]
  unfold Node.ofItems
  split
  next => exact Nat.zero_le 1
  next item hitem =>
    obtain ⟨c, -, rfl⟩ := List.mem_map.mp (hitem ▸ List.mem_cons_self (a := item) (l := []))
    exact Nat.zero_le 1
  next => exact Nat.le_of_eq (congrArg (· + 1) (hdepths ds.reverse))

end Builder

theorem leadsAll_texts (ds text : List Char) (before : Option Char) :
    (∃ last, LeadsAll (ds.map fun c => Regex.text [c]) ⟨before, text⟩ ⟨last, []⟩) ↔ text = ds := by
  induction ds generalizing text before with
  | nil =>
    constructor
    · rintro ⟨last, h⟩
      exact congrArg Cursor.rest h
    · rintro rfl
      exact ⟨before, rfl⟩
  | cons d ds ih =>
    constructor
    · rintro ⟨last, ⟨_, rest⟩, ⟨_, ⟨hfirst, -⟩, rfl⟩, hrest⟩
      rw [← (ih rest _).mp ⟨last, hrest⟩]
      exact hfirst
    · rintro rfl
      obtain ⟨last, h⟩ := (ih ds (some d)).mpr rfl
      exact ⟨last, _, ⟨_, ⟨rfl, rfl⟩, rfl⟩, h⟩

/-- Characters one behind the other are read in a text that is made of just them. -/
theorem leadsThrough_read (ds text : List Char) :
    (({} : Builder).read ds).body.regex.LeadsThrough text ↔ text = ds := by
  have hitems : (({} : Builder).read ds).items.reverse.map Node.regex =
      ds.map fun c => Regex.text [c] := by
    simp [Builder.read]
  unfold LeadsThrough
  rw [Builder.leads_body rfl, hitems]
  exact leadsAll_texts ds text none

theorem node?_spelled (h : Spells cs ds) : node? cs = some (({} : Builder).read ds).body := by
  have hread := Builder.steps?_spelled (b := {}) rfl h []
  rw [List.append_nil] at hread
  rw [node?, Builder.finished?, hread]
  rfl

/-- No comment starts in a spelled name, so that the parenthesis behind it is read. -/
theorem not_hidesEnding_spelled (h : Spells cs ds) : ¬HidesEnding cs := by
  have hread := Builder.steps?_spelled (b := {}) rfl h
  have hends := hread []
  rw [List.append_nil] at hends
  rw [HidesEnding, hread, hends]
  intro hsome
  cases hsome

end

end Regex

open Regex in
/-- A pattern that spells a name accepts that name alone. -/
theorem NamePattern.accepts_spelled {text : String} {ds : List Char}
    (h : Spells text.toList ds) :
    (∀ p, parse? text = some p → ∀ name, p.accepts name = true ↔ name.toList = ds) ∧
      ((∀ e, Regex.parse? (anchored text.toList) = some e → e.fits = true) →
        ∃ p, parse? text = some p) := by
  have hnode := node?_spelled h
  have hcloses := closesOuter_of_node? hnode
  constructor
  · intro p hp name
    obtain ⟨e, he, -, -, -, rfl⟩ := (parse?_eq_some hcloses).mp hp
    cases hnode.symm.trans he
    exact ((isMatch_ofRegex _ _).trans (leads_between _ name.toList)).trans
      (leadsThrough_read ds name.toList)
  · intro hfits
    have hhides := not_hidesEnding_spelled h
    have hdepth : (({} : Builder).read ds).body.depth + 2 ≤ maxDepth :=
      Nat.le_trans (Nat.add_le_add_right (Builder.depth_read ds) 2) (by decide)
    have hanchored := (node?_anchored hcloses _).mpr ⟨_, hnode, hhides, rfl⟩
    have hparse : Regex.parse? (anchored text.toList) =
        some (({} : Builder).read ds).body.between.regex := by
      rw [Regex.parse?_eq, hanchored]
      exact if_pos hdepth
    exact ⟨_, (parse?_eq_some hcloses).mpr ⟨_, hnode, hhides, hdepth, hfits _ hparse, rfl⟩⟩

theorem NamePattern.text_of_parse? {text : String} {p : NamePattern} (h : parse? text = some p) :
    p.text = text := by
  obtain ⟨e, -, rfl⟩ := Option.map_eq_some_iff.mp h
  rfl

namespace AppearanceRule

theorem ofRecord?_eq_ok {r : AppearanceRecord} {a : AppearanceRule} :
    ofRecord? r = .ok a ↔ ∃ text p icon, r.pattern = some text ∧ NamePattern.parse? text = some p ∧
      r.icon.mapM Icon.ofRows? = .ok icon ∧ ⟨p, r.color, r.verb, icon⟩ = a := by
  unfold ofRecord?
  cases r.pattern with
  | none => simp
  | some text =>
    cases r.icon.mapM Icon.ofRows? with
    | error e => simp [bind, Except.bind]
    | ok icon =>
      cases hp : NamePattern.parse? text with
      | none => simp [bind, Except.bind, hp]
      | some p => simp [bind, Except.bind, hp]

end AppearanceRule

namespace Template

/-- Where the letters of a template itself have no meaning in patterns, its pattern accepts just the
text of the template in the same context, whatever the directives stand for; and the pattern of an
appearance that has a literal name accepts just that name. -/
theorem accepts_expansion :
    (∀ (t : Template) (ctx : Context),
      (∀ c, .literal c ∈ t.pieces → literalStart.isMark c = false) →
      (∀ e, Regex.parse? (NamePattern.anchored (t.expandPattern ctx).toList) = some e →
        e.fits = true) →
      ∃ p, NamePattern.parse? (t.expandPattern ctx) = some p ∧
        ∀ name, p.accepts name = true ↔ name = t.expand ctx) ∧
      ∀ (r : AppearanceRecord) (a : AppearanceRule) (n : String),
        AppearanceRule.ofRecord? r = .ok a → a.literalName? = some n →
        ∀ name, a.pattern.accepts name = true ↔ name = n := by
  constructor
  · intro t ctx hplain hfits
    have hspells : Regex.Spells (t.expandPattern ctx).toList (t.expandChars ctx) := by
      rw [expandPattern, String.toList_ofList]
      exact Regex.spells_expandPatternChars ctx hplain
    obtain ⟨haccepts, hparse⟩ := NamePattern.accepts_spelled hspells
    obtain ⟨p, hp⟩ := hparse hfits
    refine ⟨p, hp, fun name => ?_⟩
    rw [haccepts p hp name, expand, ← String.toList_inj, String.toList_ofList]
  · intro r a n hr hn name
    obtain ⟨hplain, hn⟩ := Option.ite_none_right_eq_some.mp hn
    cases hn
    obtain ⟨text, p, icon, -, hp, -, rfl⟩ := AppearanceRule.ofRecord?_eq_ok.mp hr
    have htext : p.text = text := NamePattern.text_of_parse? hp
    have hspells : Regex.Spells text.toList text.toList := by
      refine Regex.spells_self fun c hc => Regex.isMark_of_not_isPatternMark ?_
      simpa using List.all_eq_true.mp hplain c (htext ▸ hc)
    rw [(NamePattern.accepts_spelled hspells).1 p hp name, String.toList_inj, htext]

theorem accepts_expansion_of_marks :
    (∃ p, NamePattern.parse? ((parse "to $1-$S").expandPattern
        ⟨.square4, 0, some "a.*", none, ["$[b\n"]⟩) = some p ∧
      ∀ name, p.accepts name = true ↔ name = "to $[b\n-a.*") ∧
      ∃ a, AppearanceRule.ofRecord? { pattern := some "wall" } = .ok a ∧
        ∀ name, a.pattern.accepts name = true ↔ name = "wall" := by
  let ctx : Context := ⟨.square4, 0, some "a.*", none, ["$[b\n"]⟩
  have hplain : ∀ p ∈ (parse "to $1-$S").pieces, ∀ c, p = .literal c →
      literalStart.isMark c = false := by
    have hpieces : (parse "to $1-$S").pieces =
        [.literal 't', .literal 'o', .literal ' ', .group 1, .literal '-', .source] := by
      decide +kernel
    rw [hpieces]
    simp [literalStart.isMark]
  have hfits : ∀ e, Regex.parse?
      (NamePattern.anchored ((parse "to $1-$S").expandPattern ctx).toList) = some e →
        e.fits = true :=
    (Option.all_eq_true _ _).mp (by decide +kernel)
  obtain ⟨p, hp, haccepts⟩ :=
    accepts_expansion.1 (parse "to $1-$S") ctx (fun c hc => hplain _ hc c rfl) hfits
  have hname : (parse "to $1-$S").expand ctx = "to $[b\n-a.*" := by decide +kernel
  obtain ⟨wall, hwall⟩ : ∃ wall, NamePattern.parse? "wall" = some wall :=
    Option.isSome_iff_exists.mp (by decide +kernel)
  have ha := AppearanceRule.ofRecord?_eq_ok (r := { pattern := some "wall" }).mpr
    ⟨"wall", wall, none, rfl, hwall, rfl, rfl⟩
  have hn : AppearanceRule.literalName? ⟨wall, .black, none, none⟩ = some "wall" := by
    rw [AppearanceRule.literalName?, NamePattern.text_of_parse? hwall]
    decide +kernel
  exact ⟨⟨p, hp, fun name => hname ▸ haccepts name⟩, _, ha,
    accepts_expansion.2 _ _ "wall" ha hn⟩

end Template

end ParticleAutomaton
