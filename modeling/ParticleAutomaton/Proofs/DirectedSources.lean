import ParticleAutomaton.Macro.Expansion
import ParticleAutomaton.Proofs.DeclaredRules
import ParticleAutomaton.Proofs.DirectionSteps
import ParticleAutomaton.Rules.Match

namespace ParticleAutomaton

open Regex (directionLetters Slot)

theorem Topology.name_letters (t : Topology) (d : Direction) :
    (t.name d).toList ≠ [] ∧ ∀ c ∈ (t.name d).toList, c ∈ directionLetters := by
  have hall : (t.neighbors.all fun x => !x.1.toList.isEmpty &&
      x.1.toList.all fun c => directionLetters.contains c) = true := by
    cases t <;> decide
  have hname := List.all_eq_true.mp hall (t.neighbor d) (List.get_mem ..)
  rw [name]
  simpa using hname

/-- The names of the directions to which one turns from a direction. -/
def Topology.naming (t : Topology) (d : Direction) : Regex.Naming Turn where
  name turn := (t.name (turn.apply t d)).toList
  ne_nil _ := (t.name_letters _).1
  letters _ := (t.name_letters _).2

namespace Piece

/-- The text that a piece contributes to a pattern. -/
def patternText (ctx : Context) : Piece → List Char
  | .literal c => [c]
  | p => quoteChars ((p.value? ctx).getD [])

theorem quoteChars_letters {cs : List Char} (h : ∀ c ∈ cs, c ∈ directionLetters) :
    quoteChars cs = cs := by
  have hplain : (directionLetters.all fun c => !isPatternMark c) = true := by decide
  induction cs with
  | nil => rfl
  | cons c cs ih =>
    have hrest := ih fun d hd => h d (List.mem_cons_of_mem c hd)
    rw [quoteChars] at hrest
    have hc : isPatternMark c = false := by
      simpa using List.all_eq_true.mp hplain c (h c (List.mem_cons_self ..))
    rw [quoteChars, List.flatMap_cons, hc, hrest]
    rfl

theorem patternText_direction (t : Topology) (d : Direction) (turn : Turn) :
    patternText (.ofDirection t d) (.direction turn) = (t.name (turn.apply t d)).toList :=
  quoteChars_letters (t.name_letters _).2

/-- Where a direction alone is known, the other directives are left out. -/
theorem patternText_unknown (t : Topology) (d : Direction) {p : Piece}
    (hliteral : ∀ c, p ≠ .literal c) (hdirection : ∀ turn, p ≠ .direction turn) :
    patternText (.ofDirection t d) p = [] := by
  have hgroup (n : Nat) : (Context.ofDirection t d).group? n = none := by cases n <;> rfl
  have hint (n : Nat) : (Context.ofDirection t d).groupInt? n = none := by
    rw [Context.groupInt?, hgroup]
    rfl
  cases p with
  | literal c => exact absurd rfl (hliteral c)
  | direction turn => exact absurd rfl (hdirection turn)
  | source => rfl
  | target => rfl
  | group n => simp only [patternText, value?, hgroup]; rfl
  | plus k n => simp only [patternText, value?, hint]; rfl
  | minus k n => simp only [patternText, value?, hint]; rfl
  | modulo m k n => simp only [patternText, value?, hint]; rfl

/-- What a piece leaves of a pattern as long as no direction is known. -/
def slot? : Piece → Option (Slot Turn)
  | .literal c => some (.char c)
  | .direction turn => some (.hole turn)
  | _ => none

theorem fill_slots (t : Topology) (d : Direction) (ps : List Piece) :
    (t.naming d).fill (ps.filterMap slot?) = ps.flatMap (patternText (.ofDirection t d)) := by
  induction ps with
  | nil => rfl
  | cons p ps ih =>
    rw [List.flatMap_cons, ← ih]
    cases p with
    | literal c => rfl
    | direction turn =>
      rw [patternText_direction]
      rfl
    | _ =>
      rw [patternText_unknown t d]
      · rfl
      all_goals nofun

end Piece

namespace Template

variable (template : Template)

/-- The anchored pattern of a template. -/
def slots : List (Slot Turn) :=
  (['^', '(', '?', ':'].map .char ++ template.pieces.filterMap Piece.slot?) ++
    Regex.ending.map .char

theorem fill_slots (t : Topology) (d : Direction) : (t.naming d).fill template.slots =
    NamePattern.anchored (template.expandPattern (.ofDirection t d)).toList := by
  rw [slots, Regex.Naming.fill_append, Regex.Naming.fill_append, Regex.Naming.fill_chars,
    Regex.Naming.fill_chars, Piece.fill_slots, expandPattern, String.toList_ofList]
  rfl

/-- What is read of the pattern, whatever the directions in it are. -/
def outline? : Option (Regex.Outline (List (Slot Turn))) :=
  (Regex.Outline.steps? template.slots.length ⟨{}, none, [], []⟩ template.slots).filter
    fun o => o.levels.isEmpty

/-- Each direction is a part of the pattern, among the items of a set, in the name of a group or in
a comment; the pattern around them can be read. -/
def directionsStandApart : Bool := template.outline?.isSome

/-- The names of the groups of the pattern in a direction. -/
def groupNames (t : Topology) (d : Direction) : List (List Char) :=
  template.outline?.elim [] fun o => o.names.map (t.naming d).fill

variable {template}

/-- A template whose directions stand apart is an expression in the directions in which no two of
its groups have one name. -/
theorem node?_of_directionsStandApart (h : template.directionsStandApart = true) (t : Topology)
    (d : Direction) :
    (∃ e, Regex.node? (NamePattern.anchored
      (template.expandPattern (.ofDirection t d)).toList) = some e) ↔
      (template.groupNames t d).Nodup := by
  obtain ⟨o, ho⟩ := Option.isSome_iff_exists.mp h
  obtain ⟨hsteps, hlevels⟩ := Option.filter_eq_some_iff.mp ho
  have hnone : (([] : List (List (Slot Turn))).map (t.naming d).fill).Nodup := List.nodup_nil
  have houtline := Regex.outline_steps? (ν := t.naming d) (b := {}) rfl hnone (Nat.le_refl _) hsteps
  rw [fill_slots] at houtline
  rw [groupNames, ho, Option.elim_some]
  unfold Regex.node? Regex.Builder.finished?
  generalize Regex.Builder.steps? _ _ _ = r at houtline
  by_cases hnames : (o.names.map (t.naming d).fill).Nodup
  · rw [Regex.Outline.settled?, if_pos hnames] at houtline
    obtain ⟨b, rfl, hb⟩ := Option.map_eq_some_iff.mp houtline
    have hb : b.levels = [] := by
      have hlength := congrArg (fun u => u.levels.length) hb
      rw [List.isEmpty_iff] at hlevels
      simpa [Regex.Builder.outline, Regex.Outline.fill, hlevels] using hlength
    exact iff_of_true ⟨b.body, by simp [Option.filter_some, hb]⟩ hnames
  · rw [Regex.Outline.settled?, if_neg hnames] at houtline
    rw [Option.map_eq_none_iff.mp houtline]
    exact iff_of_false (by simp) hnames

end Template

theorem NamePattern.parse?_isSome (text : String) : (parse? text).isSome = true ↔
    ∃ e, Regex.node? (anchored text.toList) = some e ∧ e.depth ≤ Regex.maxDepth ∧
      e.regex.fits = true := by
  unfold parse?
  rw [Option.isSome_map, Regex.parse?_eq]
  cases Regex.node? (anchored text.toList) with
  | none => simp
  | some e =>
    by_cases hdepth : e.depth ≤ Regex.maxDepth
    · simp [hdepth, Option.filter_some]
    · simp [hdepth]

namespace TransformRule

/-- A rule that is read from a record has a pattern in the direction it was checked for: its only
one, or the first. Where its directions stand apart its text is an expression in every direction in
which no two of its groups have one name, and the rule has a pattern there unless the expression is
nested too deep or too large. -/
theorem source_in_directions {R : Type} [Scalar R] {t : Topology} {record : TransformRecord R}
    {rule : TransformRule R} (h : ofRecord? t record = .ok rule) {d : Direction}
    (hd : rule.appliesTo d = true) :
    (rule.dir.isSome = true ∨ d = 0 → (DirectedRule.ofRule rule t d).source.isSome = true) ∧
      (rule.source.directionsStandApart = true →
        ((∃ e, Regex.node? (NamePattern.anchored
            (rule.source.expandPattern (.ofDirection t d)).toList) = some e) ↔
          (rule.source.groupNames t d).Nodup) ∧
        ∀ e, Regex.node? (NamePattern.anchored
            (rule.source.expandPattern (.ofDirection t d)).toList) = some e →
          ((DirectedRule.ofRule rule t d).source.isSome = true ↔
            e.depth ≤ Regex.maxDepth ∧ e.regex.fits = true)) := by
  obtain ⟨source, target, dir, -, hchecked, rfl⟩ := ofRecord_eq_ok h
  have hchecked := hchecked source (List.mem_cons_self ..)
  constructor
  · intro hdir
    have hfirst : d = dir.getD 0 := by
      cases dir with
      | none => exact hdir.resolve_left nofun
      | some d' => exact (beq_iff_eq.mp hd).symm
    rw [hfirst]
    exact hchecked
  · intro hapart
    refine ⟨Template.node?_of_directionsStandApart hapart t d, fun e he => ?_⟩
    refine (NamePattern.parse?_isSome _).trans ?_
    rw [he]
    simp

/-- Directions in a set, in a comment and in a group that is repeated. -/
theorem source_in_directions_of_set :
    ∃ rule : TransformRule Float,
      ofRecord? .square4 { source := some "(?x)[$F]+ # $F\n(?P<_>a$B)?", target := some "_" } =
          .ok rule ∧
        rule.appliesTo 1 = true ∧ rule.source.directionsStandApart = true ∧
        rule.source.groupNames .square4 1 = [['_']] ∧
        (DirectedRule.ofRule rule .square4 1).source.isSome = true := by
  let record : TransformRecord Float :=
    { source := some "(?x)[$F]+ # $F\n(?P<_>a$B)?", target := some "_" }
  have hread : ((ofRecord? .square4 record).toOption.any fun rule => rule.appliesTo 1 &&
      rule.source == Template.parse "(?x)[$F]+ # $F\n(?P<_>a$B)?") = true := by
    decide +kernel
  obtain ⟨rule, hrule, hread⟩ := any_toOption.mp hread
  obtain ⟨happlies, hsource⟩ := Bool.and_eq_true_iff.mp hread
  have hsource := beq_iff_eq.mp hsource
  have hapart : rule.source.directionsStandApart = true := by
    rw [hsource]
    decide +kernel
  have hnames : rule.source.groupNames .square4 1 = [['_']] := by
    rw [hsource]
    decide +kernel
  obtain ⟨hnode, hlimits⟩ := (source_in_directions hrule happlies).2 hapart
  obtain ⟨e, he⟩ := hnode.mpr (hnames ▸ by decide)
  have hsize : ((Regex.node? (NamePattern.anchored (rule.source.expandPattern
      (.ofDirection .square4 1)).toList)).all fun e =>
        decide (e.depth ≤ Regex.maxDepth) && e.regex.fits) = true := by
    rw [hsource]
    decide +kernel
  rw [he, Option.all_some, Bool.and_eq_true, decide_eq_true_eq] at hsize
  exact ⟨rule, hrule, happlies, hapart, hnames, (hlimits e he).mpr hsize⟩

example : (["[$F]", "[^a-z$F]", "[[:alpha:]$F&&[^$B]]+", "(?x)# $F\n$F\x7b2\x7d"].all fun text =>
    (Template.parse text).directionsStandApart) = true := by
  decide +kernel

-- The end of a range and an escape that a direction is part of have a meaning for the north only.
example : (["[f-$F]", "\\$F"].all fun text => (ofRecord? (R := Float) .square4
    { source := some text, target := some "_" }).toOption.any fun rule =>
      !rule.source.directionsStandApart && rule.appliesTo 1 &&
        (DirectedRule.ofRule rule .square4 1).source.isNone) = true := by
  decide +kernel

end TransformRule

end ParticleAutomaton
