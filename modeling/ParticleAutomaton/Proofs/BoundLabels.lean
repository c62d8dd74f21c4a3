import Mathlib.Data.Real.Basic
import ParticleAutomaton.Proofs.BondWalks

namespace ParticleAutomaton

namespace Labels

variable {g : Grid}

/-- What the labels of a change say about its rule on a grid. -/
structure Fits {R : Type} (l : Labels) (g : Grid) (rule : TransformRule R) : Prop where
  /-- A required bond stands at its origin, or at its destination if its origin is off the grid. -/
  required : ∀ x ∈ rule.required, ∃ a b, l.get? x.origin = some a ∧
    l.get? x.destination = some b ∧
      if g.contains a = true then g.outgoing? a x.name = some (b - a)
      else g.incoming? b x.name = some (a - b)
  known : ∀ x ∈ rule.excluded, ¬ (l.get? x.origin = none ∧ l.get? x.destination = none)
  apart : ∀ x ∈ rule.excluded, ∀ a b, l.get? x.origin = some a → l.get? x.destination = some b →
    ¬ g.field.Stands ⟨a, b, x.name⟩
  noneLeaves : ∀ x ∈ rule.excluded, ∀ a, l.get? x.origin = some a →
    l.get? x.destination = none → g.contains a = true → ∀ b, ¬ g.field.Stands ⟨a, b, x.name⟩
  noneEnters : ∀ x ∈ rule.excluded, ∀ b, l.get? x.origin = none →
    l.get? x.destination = some b → g.contains b = true → ∀ a, ¬ g.field.Stands ⟨a, b, x.name⟩
  created : ∀ x ∈ rule.created, ∃ a b, l.get? x.origin = some a ∧ l.get? x.destination = some b ∧
    a ≠ b

/-- An expression whose bond is missing has a label with a place. -/
theorem known_of_missing {l : Labels} {x : BondExpr} (h : l.look g x = .missing) :
    ¬ (l.get? x.origin = none ∧ l.get? x.destination = none) := by
  rintro ⟨ho, hd⟩
  unfold look at h
  rw [ho, hd] at h
  exact nomatch h

/-- Two places between which a bond is missing have none, also where it would stand at one of them
only. -/
theorem apart_of_missing (hm : g.field.Mirrored) {l : Labels} {x : BondExpr} {a b : Point}
    (h : l.look g x = .missing) (ho : l.get? x.origin = some a)
    (hd : l.get? x.destination = some b) : ¬ g.field.Stands ⟨a, b, x.name⟩ := by
  intro hs
  have hsees := l.sees_look g x
  rw [h] at hsees
  cases hsees with
  | parted ho' hd' hnone =>
    cases ho.symm.trans ho'
    cases hd.symm.trans hd'
    have hstands := (Grid.stands_iff hm).mp hs
    split at hstands
    next => exact hnone (Or.inl hstands)
    next hoff => exact hnone (Or.inr ⟨Bool.eq_false_iff.mpr hoff, hstands⟩)
  | deadEnd _ hd' _ => cases hd.symm.trans hd'
  | noEntry ho' _ _ => cases ho.symm.trans ho'

theorem none_leaves_of_missing (hm : g.field.Mirrored) {l : Labels} {x : BondExpr} {a : Point}
    (h : l.look g x = .missing) (ho : l.get? x.origin = some a) (hd : l.get? x.destination = none)
    (ha : g.contains a = true) (b : Point) : ¬ g.field.Stands ⟨a, b, x.name⟩ := by
  have hsees := l.sees_look g x
  rw [h] at hsees
  cases hsees with
  | parted _ hd' _ => cases hd.symm.trans hd'
  | deadEnd ho' _ hnone =>
    cases ho.symm.trans ho'
    exact Grid.not_stands_of_outgoing hm ha hnone b
  | noEntry ho' _ _ => cases ho.symm.trans ho'

theorem none_enters_of_missing (hm : g.field.Mirrored) {l : Labels} {x : BondExpr} {b : Point}
    (h : l.look g x = .missing) (ho : l.get? x.origin = none)
    (hd : l.get? x.destination = some b) (hb : g.contains b = true) (a : Point) :
    ¬ g.field.Stands ⟨a, b, x.name⟩ := by
  have hsees := l.sees_look g x
  rw [h] at hsees
  cases hsees with
  | parted ho' _ _ => cases ho.symm.trans ho'
  | deadEnd _ hd' _ => cases hd.symm.trans hd'
  | noEntry _ hd' hnone =>
    cases hd.symm.trans hd'
    exact Grid.not_stands_of_incoming hm hb hnone a

end Labels

theorem TransformRule.hasBonds_eq_false_iff {R : Type} {rule : TransformRule R} :
    rule.hasBonds = false ↔
      rule.required = [] ∧ rule.optional = [] ∧ rule.excluded = [] ∧ rule.created = [] := by
  simp [hasBonds, and_assoc]

namespace UpdateEvent

variable {R : Type} {e f : UpdateEvent R} {g : Grid} {rule : TransformRule R}

/-- The created bonds are those of their expressions, in order, and none is a loop. -/
theorem createdBonds_eq_some {l : Labels} {created : List BondExpr} {bonds : List Bond}
    (h : createdBonds l created = some bonds) :
    List.Forall₂ (fun x b => l.Places x b ∧ b.origin ≠ b.destination) created bonds := by
  induction created generalizing bonds with
  | nil =>
    cases h
    exact .nil
  | cons x created ih =>
    unfold createdBonds at h
    rw [List.mapM_cons] at h
    obtain ⟨b, hb, h⟩ := Option.bind_eq_some_iff.mp h
    obtain ⟨more, hmore, h⟩ := Option.bind_eq_some_iff.mp h
    cases h
    refine .cons ?_ (ih hmore)
    obtain ⟨origin, ho, hb⟩ := Option.bind_eq_some_iff.mp hb
    obtain ⟨destination, hd, hb⟩ := Option.bind_eq_some_iff.mp hb
    split at hb
    next => exact nomatch hb
    next hne =>
      cases hb
      exact ⟨⟨ho, hd, rfl⟩, hne⟩

theorem places_of_createdBonds {l : Labels} {created : List BondExpr} {bonds : List Bond}
    (h : createdBonds l created = some bonds) {x : BondExpr} (hx : x ∈ created) :
    ∃ b, l.Places x b ∧ b.origin ≠ b.destination := by
  have hall := createdBonds_eq_some h
  clear h
  induction hall with
  | nil => exact nomatch hx
  | cons hb _ ih =>
    rcases List.mem_cons.mp hx with rfl | hx
    · exact ⟨_, hb⟩
    · exact ih hx

/-- All that has to be so for a rule to be planned. -/
theorem planRule_eq_some {l l' : Labels} {plan : Plan}
    (h : e.planRule g l rule = (some plan, l')) :
    (e.remote = true → rule.hasBonds = false) ∧
      ∃ l₁, l.resolve g true rule.required = (true, l₁) ∧
        l' = (l₁.resolve g false rule.optional).2 ∧
        (∀ x ∈ rule.excluded, l'.look g x = .missing) ∧
        e.planFor? g l' rule.created = some plan := by
  unfold planRule at h
  split at h
  next => exact nomatch h
  next hlocal =>
    refine ⟨fun hr => Bool.eq_false_iff.mpr fun hb => hlocal ⟨hr, hb⟩, ?_⟩
    split at h
    next => exact nomatch h
    next l₁ hrequired =>
      simp only at h
      split at h
      next => exact nomatch h
      next hexcluded =>
        obtain ⟨hplan, rfl⟩ := Prod.mk.inj h
        refine ⟨l₁, hrequired, rfl, fun x hx => ?_, hplan⟩
        by_contra hne
        exact hexcluded (List.any_eq_true.mpr ⟨x, hx, bne_iff_ne.mpr hne⟩)

/-- To bind a rule is to plan it. -/
theorem bind_rule (hr : e.outcome.rule = some rule) (hfresh : e.bound = false) :
    e.bind g = .ok ((e.planRule g (.ofEnds e.source e.target) rule).1.isSome,
      { e with
        bound := true
        labels := (e.planRule g (.ofEnds e.source e.target) rule).2
        plan := (e.planRule g (.ofEnds e.source e.target) rule).1.getD e.plan }) := by
  unfold bind
  rw [if_neg (by simp [hfresh]), hr]
  simp only
  split
  next h => rw [h, Option.isSome_some, Option.getD_some]
  next h => rw [h, Option.isSome_none, Option.getD_none]

theorem fresh_of_bind {done : Bool} (h : e.bind g = .ok (done, f)) : e.bound = false := by
  unfold bind at h
  split at h
  next => exact nomatch h
  next hb => exact Bool.eq_false_iff.mpr hb

/-- A rule that is bound is planned. -/
theorem bind_eq_true (hr : e.outcome.rule = some rule) (h : e.bind g = .ok (true, f)) :
    ∃ plan labels, f = { e with bound := true, labels, plan } ∧
      e.planRule g (.ofEnds e.source e.target) rule = (some plan, labels) := by
  rw [bind_rule hr (fresh_of_bind h)] at h
  obtain ⟨hsome, rfl⟩ := Prod.mk.inj (Except.ok.inj h)
  obtain ⟨plan, hplan⟩ := Option.isSome_iff_exists.mp hsome
  refine ⟨plan, _, ?_, Prod.ext hplan rfl⟩
  rw [hplan, Option.getD_some]

/-- The labels of a planned rule come of those of the ends, bond by bond. -/
theorem walk_planRule {l l' : Labels} {plan : Plan} (h : e.planRule g l rule = (some plan, l')) :
    ∃ bonds, Labels.Walk g (rule.required ++ rule.optional) l bonds l' := by
  obtain ⟨-, l₁, hrequired, rfl, -⟩ := planRule_eq_some h
  obtain ⟨bonds, hwalk⟩ := l.walk_resolve g true rule.required
  rw [hrequired] at hwalk
  obtain ⟨more, hmore⟩ := l₁.walk_resolve g false rule.optional
  exact ⟨_, (hwalk.mono fun x hx => List.mem_append_left _ hx).trans
    (hmore.mono fun x hx => List.mem_append_right _ hx)⟩

theorem fits_planRule (hm : g.field.Mirrored) {l l' : Labels} {plan : Plan}
    (h : e.planRule g l rule = (some plan, l')) : l'.Fits g rule := by
  obtain ⟨-, l₁, hrequired, rfl, hexcluded, hplan⟩ := planRule_eq_some h
  obtain ⟨bonds, hcreated, -⟩ := Option.bind_eq_some_iff.mp hplan
  obtain ⟨more, hmore⟩ := l₁.walk_resolve g false rule.optional
  have hfound : ∀ x ∈ rule.required, ∃ b, l₁.Realizes g x b := by
    rcases Labels.resolve_required hrequired with ⟨-, hall⟩ | ⟨hfalse, -⟩
    · exact hall
    · exact nomatch hfalse
  refine ⟨fun x hx => ?_, fun x hx => Labels.known_of_missing (hexcluded x hx),
    fun x hx _ _ => Labels.apart_of_missing hm (hexcluded x hx),
    fun x hx _ => Labels.none_leaves_of_missing hm (hexcluded x hx),
    fun x hx _ => Labels.none_enters_of_missing hm (hexcluded x hx), fun x hx => ?_⟩
  · obtain ⟨b, hb⟩ := hfound x hx
    have hreal := hb.mono hmore.keeps
    have hstands := (Grid.stands_iff hm).mp hreal.stands
    rw [← hreal.name] at hstands
    exact ⟨b.origin, b.destination, hreal.origin, hreal.destination, hstands⟩
  · obtain ⟨b, hb, hne⟩ := places_of_createdBonds hcreated hx
    exact ⟨b.origin, b.destination, hb.origin, hb.destination, hne⟩

/-- A rule without bonds can always be planned. -/
theorem planRule_of_no_bonds (h : rule.hasBonds = false) (e : UpdateEvent R) (g : Grid)
    (l : Labels) : ∃ plan, e.planRule g l rule = (some plan, l) := by
  obtain ⟨hrequired, hoptional, hexcluded, hcreated⟩ :=
    TransformRule.hasBonds_eq_false_iff.mp h
  refine ⟨(e.ends.flatMap (e.droppedAt g l)).foldl (Plan.drop g) .empty, ?_⟩
  unfold planRule
  rw [if_neg (by simp [h]), hrequired, hoptional, hexcluded, hcreated]
  rfl

/-- A rule that is bound fits the grid under its labels, whatever labels its bonds share, and one of
a change from another board is bound if it says nothing of bonds. -/
theorem bind_sound (hg : g.gap? = none) (hr : e.outcome.rule = some rule) :
    (∀ f, e.bind g = .ok (true, f) →
      f.label? "s" = some e.source ∧ f.label? "tS" = some e.source ∧
        f.label? "t" = some e.target ∧ f.label? "sT" = some e.target ∧ f.labels.Fits g rule) ∧
      (e.remote = true → e.bound = false → ((∃ f, e.bind g = .ok (true, f)) ↔
        rule.required = [] ∧ rule.optional = [] ∧ rule.excluded = [] ∧ rule.created = [])) := by
  refine ⟨fun f hf => ?_, fun hremote hfresh => ?_⟩
  · obtain ⟨plan, labels, rfl, hplan⟩ := bind_eq_true hr hf
    obtain ⟨bonds, hwalk⟩ := walk_planRule hplan
    have hfits := fits_planRule (Grid.gap?_eq_none_iff.mp hg) hplan
    exact ⟨hwalk.keeps.get? rfl, hwalk.keeps.get? rfl, hwalk.keeps.get? rfl,
      hwalk.keeps.get? rfl, hfits⟩
  · rw [← TransformRule.hasBonds_eq_false_iff]
    constructor
    · rintro ⟨f, hf⟩
      obtain ⟨plan, labels, -, hplan⟩ := bind_eq_true hr hf
      exact (planRule_eq_some hplan).1 hremote
    · intro hbonds
      obtain ⟨plan, hplan⟩ := planRule_of_no_bonds hbonds e g (.ofEnds e.source e.target)
      rw [bind_rule hr hfresh, hplan]
      exact ⟨_, rfl⟩

/-- A chain of bonds that is told from its end, and starts off the grid. -/
theorem bind_sound_of_chain :
    ∃ (e f : UpdateEvent ℝ) (g : Grid) (rule : TransformRule ℝ), g.gap? = none ∧
      e.outcome.rule = some rule ∧
      rule.required = [⟨"y", "z", "j"⟩, ⟨"s", "y", "k"⟩, ⟨"w", "s", "n"⟩] ∧
      rule.excluded = [⟨"s", "t", "k"⟩] ∧ rule.created = [⟨"t", "z", "p"⟩] ∧
      e.bind g = .ok (true, f) ∧ f.label? "w" = some ⟨-1, 0⟩ ∧ f.label? "z" = some ⟨3, 0⟩ ∧
      f.labels.Fits g rule := by
  let blank : Template := ⟨"", []⟩
  let rule : TransformRule ℝ := ⟨none, none, blank, blank, blank, blank, 1, blank,
    [⟨"y", "z", "j"⟩, ⟨"s", "y", "k"⟩, ⟨"w", "s", "n"⟩], [], [⟨"s", "t", "k"⟩],
    [⟨"t", "z", "p"⟩]⟩
  let i : ParticleId := ⟨0, 0⟩
  let g : Grid := (((Grid.new 4 1 i).writeBond ⟨⟨0, 0⟩, ⟨2, 0⟩, "k"⟩).writeBond
    ⟨⟨2, 0⟩, ⟨3, 0⟩, "j"⟩).writeBond ⟨⟨-1, 0⟩, ⟨0, 0⟩, "n"⟩
  let e : UpdateEvent ℝ := .new ⟨0, 0⟩ ⟨1, 0⟩ 0 i i ⟨⟨1, 1⟩, i, "", some rule⟩
  have hg : g.gap? = none := by decide +kernel
  have hbind : ((e.bind g).toOption.any fun x => x.1 && x.2.label? "w" == some ⟨-1, 0⟩ &&
      x.2.label? "z" == some ⟨3, 0⟩) = true := by decide +kernel
  obtain ⟨⟨bound, f⟩, hf, hlabels⟩ := any_toOption.mp hbind
  obtain ⟨⟨rfl, hw⟩, hz⟩ : (bound = true ∧ f.label? "w" = some ⟨-1, 0⟩) ∧
      f.label? "z" = some ⟨3, 0⟩ := by simpa using hlabels
  obtain ⟨-, -, -, -, hfits⟩ := (bind_sound hg (rfl : e.outcome.rule = some rule)).1 f hf
  exact ⟨e, f, g, rule, hg, rfl, rfl, rfl, rfl, hf, hw, hz, hfits⟩

end UpdateEvent

end ParticleAutomaton
