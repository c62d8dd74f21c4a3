import Mathlib.Data.Set.Basic
import ParticleAutomaton.Proofs.BoundLabels

namespace ParticleAutomaton

namespace BondField

/-- The bonds that stand at one of their ends at least. -/
def standing (F : BondField) : Set Bond := {b | F.Stands b}

/-- At most one bond of a name has a place for its origin, on the field or off it. -/
def Single (F : BondField) : Prop :=
  ∀ b c, F.Stands b → F.Stands c → b.origin = c.origin → b.name = c.name → b = c

variable {F : BondField} {b c : Bond} {out into : Option Bond}

/-- Where no bond enters from off the field, those of one name leave a place one at a time. -/
theorem single_of_inside (hm : F.Mirrored) (h : ∀ b, F.Enters b → F.Holds b.origin) :
    F.Single := by
  have hleaves : ∀ b, F.Stands b → F.Leaves b := by
    intro b hb
    rcases hb with hl | he
    · exact hl
    · exact (hm b (h b he) he.holds).mpr he
  intro b c hb hc ho hn
  exact (hleaves b hb).unique (hleaves c hc) ho hn

theorem holds_dropAny {p : Point} : (F.dropAny out).Holds p ↔ F.Holds p := by
  cases out with
  | none => exact Iff.rfl
  | some b => exact holds_drop

theorem stands_write (hb : c ≠ b) : (F.write b).Stands c ↔
    F.Leaves c ∧ ¬ (c.origin = b.origin ∧ c.name = b.name) ∨
      F.Enters c ∧ ¬ (c.destination = b.destination ∧ c.name = b.name) := by
  unfold Stands
  rw [leaves_write, enters_write]
  simp only [hb, and_false, false_or]

theorem stands_write_self : (F.write b).Stands b ↔ F.Holds b.origin ∨ F.Holds b.destination := by
  unfold Stands
  rw [leaves_write, enters_write]
  simp

/-- A bond is in the way of one of its name that leaves the same place of the field, or enters the
same one. -/
def InWay (F : BondField) (b c : Bond) : Prop :=
  F.Holds b.origin ∧ c.origin = b.origin ∧ c.name = b.name ∨
    F.Holds b.destination ∧ c.destination = b.destination ∧ c.name = b.name

/-- Where all bonds in the way of one are dropped before it is written, all others stay. -/
theorem stands_displace (hm : F.Mirrored)
    (ho : ∀ k, out = some k ↔ F.leaving? b.origin b.name = some k ∧ k ≠ b)
    (hi : ∀ k, into = some k ↔
      (F.dropAny out).entering? b.destination b.name = some k ∧ k ≠ b) (hb : c ≠ b) :
    (((F.dropAny out).dropAny into).write b).Stands c ↔ F.Stands c ∧ ¬ F.InWay b c := by
  have hout : out = some c ↔ F.Leaves c ∧ c.origin = b.origin ∧ c.name = b.name := by
    rw [ho c, leaving?_eq_some_iff, and_iff_left hb]
  have hinto : into = some c ↔
      (F.Enters c ∧ out ≠ some c) ∧ c.destination = b.destination ∧ c.name = b.name := by
    rw [hi c, entering?_eq_some_iff, enters_dropAny, and_iff_left hb]
  have hleaving : F.Leaves c → c.origin = b.origin ∧ c.name = b.name → F.InWay b c :=
    fun hl hat => Or.inl ⟨hat.1 ▸ hl.holds, hat⟩
  have hentering : F.Enters c → c.destination = b.destination ∧ c.name = b.name → F.InWay b c :=
    fun he hat => Or.inr ⟨hat.1 ▸ he.holds, hat⟩
  have hlost : (out = some c ∨ into = some c) → F.InWay b c := by
    rintro (hgone | hgone)
    · exact hleaving (hout.mp hgone).1 (hout.mp hgone).2
    · exact hentering (hinto.mp hgone).1.1 (hinto.mp hgone).2
  -- A bond in the way at one of its ends is dropped at the other one, too, if that is on the field.
  have hkept : F.Stands c → out ≠ some c → into ≠ some c → ¬ F.InWay b c := by
    rintro hc hno hni (⟨hholds, hat⟩ | ⟨hholds, hat⟩)
    · exact hno (hout.mpr ⟨hc.leaves hm (hat.1 ▸ hholds), hat⟩)
    · exact hni (hinto.mpr ⟨⟨hc.enters hm (hat.1 ▸ hholds), hno⟩, hat⟩)
  rw [stands_write hb]
  simp only [leaves_dropAny, enters_dropAny]
  constructor
  · rintro (⟨⟨⟨hl, hno⟩, hni⟩, -⟩ | ⟨⟨⟨he, hno⟩, hni⟩, -⟩)
    · exact ⟨Or.inl hl, hkept (Or.inl hl) hno hni⟩
    · exact ⟨Or.inr he, hkept (Or.inr he) hno hni⟩
  · rintro ⟨hc, hway⟩
    have hno : out ≠ some c := fun hgone => hway (hlost (Or.inl hgone))
    have hni : into ≠ some c := fun hgone => hway (hlost (Or.inr hgone))
    rcases hc with hl | he
    · exact Or.inl ⟨⟨⟨hl, hno⟩, hni⟩, fun hat => hway (hleaving hl hat)⟩
    · exact Or.inr ⟨⟨⟨he, hno⟩, hni⟩, fun hat => hway (hentering he hat)⟩

end BondField

namespace Grid

/-- The bonds of which one more is written: those of its name that leave its origin, or enter its
destination, make way where this is on the grid, and the new one stands if one of its ends is. -/
def displace (g : Grid) (bonds : Set Bond) (b : Bond) : Set Bond :=
  {c | c ∈ bonds ∧
      ¬ (g.contains b.origin = true ∧ c.origin = b.origin ∧ c.name = b.name) ∧
      ¬ (g.contains b.destination = true ∧ c.destination = b.destination ∧ c.name = b.name) ∨
    c = b ∧ (g.contains b.origin = true ∨ g.contains b.destination = true)}

/-- No bond of a cell enters from off the grid. -/
def inside (g : Grid) : Bool :=
  g.toList.all fun (p, c) => c.bonds.incoming.entries.all fun (_, offset) => g.contains (p + offset)

theorem single_of_inside {g : Grid} (hm : g.field.Mirrored) (h : g.inside = true) :
    g.field.Single := by
  refine BondField.single_of_inside hm fun b hb => ?_
  obtain ⟨c, hc⟩ := get?_of_contains (holds_field.mp hb.holds)
  have hcell := List.all_eq_true.mp h _ (mem_toList.mpr hc)
  have hentry := List.all_eq_true.mp hcell _ ((mem_incoming_iff hc).mpr hb)
  rw [holds_field]
  simpa [Point.add_sub_cancel] using hentry

end Grid

namespace Plan

variable {g : Grid} {plan : Plan}

theorem standing_drops (g : Grid) (bonds : List Bond) (plan : Plan) :
    ((bonds.foldl (drop g) plan).field g).standing =
      {c | c ∈ (plan.field g).standing ∧ c ∉ bonds} := by
  ext c
  show (BondField.Leaves _ c ∨ BondField.Enters _ c) ↔ (_ ∨ _) ∧ _
  rw [leaves_drops, enters_drops, or_and_right]

theorem standing_add (hw : plan.WellFormed g) (hm : (plan.field g).Mirrored) (b : Bond) :
    ((add g plan b).field g).standing = g.displace (plan.field g).standing b := by
  obtain ⟨out, into, hout, hinto, hfield⟩ := field_add g plan b
  ext c
  show ((add g plan b).field g).Stands c ↔ (plan.field g).Stands c ∧ _ ∧ _ ∨ _
  rw [hfield]
  by_cases hc : c = b
  · subst hc
    have hholds : (plan.field g).Stands c →
        g.contains c.origin = true ∨ g.contains c.destination = true := by
      rintro (hl | he)
      · exact Or.inl ((holds_field hw).mp hl.holds)
      · exact Or.inr ((holds_field hw).mp he.holds)
    rw [BondField.stands_write_self, BondField.holds_dropAny, BondField.holds_dropAny,
      BondField.holds_dropAny, BondField.holds_dropAny, holds_field hw, holds_field hw]
    simp only [true_and, and_true]
    exact ⟨Or.inr, fun h => h.elim (fun h => hholds h.1) id⟩
  · rw [BondField.stands_displace hm hout hinto hc]
    simp only [BondField.InWay, holds_field hw, not_or, hc, false_and, or_false]

/-- Bonds that are written one after another displace others in turn. -/
theorem standing_adds (hw : plan.WellFormed g) (hm : (plan.field g).Mirrored) (bonds : List Bond) :
    ((bonds.foldl (add g) plan).field g).standing =
      bonds.foldl g.displace (plan.field g).standing := by
  induction bonds generalizing plan with
  | nil => rfl
  | cons b bonds ih =>
    rw [List.foldl_cons, ih (hw.add b) (mirrored_add hm b), standing_add hw hm, List.foldl_cons]

end Plan

namespace Labels

variable {g : Grid}

/-- What was found are the bonds of a walk, where their origins and names tell them apart. -/
theorem Walk.mem_found_iff {es : List BondExpr} {l m : Labels} {bonds : List Bond}
    (h : Walk g es l bonds m) (hl : l.found = []) (hs : g.field.Single) {k : Bond}
    (hk : g.field.Stands k) : (k.origin, k.name) ∈ m.found ↔ k ∈ bonds := by
  rw [h.found, hl, List.append_nil, List.mem_reverse, List.mem_map]
  constructor
  · rintro ⟨b, hb, he⟩
    obtain ⟨ho, hn⟩ := Prod.mk.inj he
    obtain ⟨x, -, hreal⟩ := h.realizes hb
    exact hs b k hreal.stands hk ho hn ▸ hb
  · intro hb
    exact ⟨k, hb, rfl⟩

/-- The bonds that a rule matches. They are found one after another; an optional bond that is not
among them had no label with a place, or was missing when it was looked for. -/
structure Matches {R : Type} (g : Grid) (rule : TransformRule R) (l m : Labels)
    (matched : List Bond) : Prop where
  walk : Walk g (rule.required ++ rule.optional) l matched m
  required : ∀ x ∈ rule.required, ∃ b ∈ matched, m.Places x b
  optional : ∀ x ∈ rule.optional, (∃ b ∈ matched, m.Places x b) ∨ m.look g x = .unknown ∨
    ∃ k before after, Walk g (rule.required ++ rule.optional) l before k ∧
      k.look g x = .missing ∧ Walk g (rule.required ++ rule.optional) k after m

end Labels

namespace UpdateEvent

variable {R : Type} {e f : UpdateEvent R} {g g' : Grid} {rule : TransformRule R}

theorem matches_planRule {l l' : Labels} {plan : Plan} (hs : g.field.Single) (hl : l.found = [])
    (h : e.planRule g l rule = (some plan, l')) :
    ∃ matched, Labels.Matches g rule l l' matched := by
  obtain ⟨-, l₁, hrequired, rfl, -⟩ := planRule_eq_some h
  obtain ⟨before, hbefore⟩ := l.walk_resolve g true rule.required
  rw [hrequired] at hbefore
  have hleft : ∀ x ∈ rule.required, x ∈ rule.required ++ rule.optional :=
    fun x hx => List.mem_append_left _ hx
  have hfirst := hbefore.mono hleft
  have hsecond : ∀ x ∈ rule.optional, x ∈ rule.required ++ rule.optional :=
    fun x hx => List.mem_append_right _ hx
  obtain ⟨after, hafter⟩ := l₁.walk_resolve g false rule.optional
  have hwalk := hfirst.trans (hafter.mono hsecond)
  have hmatched : ∀ {x b}, (l₁.resolve g false rule.optional).2.Realizes g x b →
      ∃ b ∈ before ++ after, (l₁.resolve g false rule.optional).2.Places x b := by
    intro x b hb
    exact ⟨b, (hwalk.mem_found_iff hl hs hb.stands).mp hb.found, hb.toPlaces⟩
  refine ⟨_, hwalk, fun x hx => ?_, fun x hx => ?_⟩
  · rcases Labels.resolve_required hrequired with ⟨-, hall⟩ | ⟨hfalse, -⟩
    · obtain ⟨b, hb⟩ := hall x hx
      exact hmatched (hb.mono hafter.keeps)
    · exact nomatch hfalse
  · rcases Labels.resolve_optional (Prod.mk.eta (p := l₁.resolve g false rule.optional)).symm x hx
      with hunknown | hmet
    · exact Or.inr (Or.inl hunknown)
    · rcases (hmet.mono hsecond).after hfirst with ⟨b, hb⟩ | ⟨-, hmissing⟩
      · exact Or.inl (hmatched hb)
      · exact Or.inr (Or.inr hmissing)

/-- A change changes the particle of one of its ends just where it says so. -/
theorem changesAt_iff (he : e.Meets g) (hw : e.plan.WellFormed g) {p : Point} (hp : p ∈ e.ends)
    (hc : g.contains p = true) : e.changesAt p = true ↔
      ((e.applied g).get? p).map (·.particle) ≠ (g.get? p).map (·.particle) := by
  obtain ⟨c, hc⟩ := Grid.get?_of_contains hc
  obtain ⟨c', hc', hparticle, -⟩ := get?_applied he.apart hw hc
  rw [hc', hc, Option.map_some, Option.map_some, hparticle]
  by_cases ht : p = e.target
  · subst ht
    simp [changesAt, targetChanges, he.target c hc, he.apart.symm]
  · unfold ends at hp
    split at hp
    next => exact absurd (List.mem_singleton.mp hp) ht
    next hr =>
      have hps : p = e.source := by simpa [ht] using hp
      subst hps
      have hr' := Bool.eq_false_iff.mpr hr
      simp [changesAt, sourceChanges, ends, he.source hr' c hc, he.apart, hr']

/-- The bonds at an end that do not last are all of them if its particle changes, and otherwise
those that its rule matches. -/
theorem standing_drop_ends {matched : List Bond} {l m : Labels} {es : List BondExpr}
    (hm : g.field.Mirrored) (hs : g.field.Single) (hl : l.found = [])
    (hwalk : Labels.Walk g es l matched m) :
    (((e.ends.flatMap (e.droppedAt g m)).foldl (Plan.drop g) .empty).field g).standing =
      {b | b ∈ g.field.standing ∧ ∀ p ∈ e.ends, g.contains p = true →
        b.origin = p ∨ b.destination = p → e.changesAt p = false ∧ b ∉ matched} := by
  rw [Plan.standing_drops, Plan.field_empty]
  ext b
  refine and_congr_right fun hb => ?_
  rw [List.mem_flatMap]
  constructor
  · intro hstays p hp hc hends
    obtain ⟨c, hcell⟩ := Grid.get?_of_contains hc
    have hholds := Grid.holds_field.mpr hc
    have hat : b.origin = p ∧ g.field.Leaves b ∨ b.destination = p ∧ g.field.Enters b := by
      rcases hends with rfl | rfl
      · exact Or.inl ⟨rfl, hb.leaves hm hholds⟩
      · exact Or.inr ⟨rfl, hb.enters hm hholds⟩
    have hnot : ¬ (e.changesAt p = true ∨ (b.origin, b.name) ∈ m.found) :=
      fun hgoes => hstays ⟨p, hp, (mem_droppedAt hcell).mpr ⟨hgoes, hat⟩⟩
    rw [hwalk.mem_found_iff hl hs hb, not_or] at hnot
    exact ⟨Bool.eq_false_iff.mpr hnot.1, hnot.2⟩
  · rintro hstays ⟨p, hp, hdropped⟩
    cases hcell : g.get? p with
    | none =>
      unfold droppedAt at hdropped
      rw [hcell] at hdropped
      exact nomatch hdropped
    | some c =>
      obtain ⟨hgoes, hat⟩ := (mem_droppedAt hcell).mp hdropped
      obtain ⟨hchanges, hmatched⟩ := hstays p hp (Grid.contains_of_get? hcell)
        (hat.imp And.left And.left)
      rw [hwalk.mem_found_iff hl hs hb, hchanges] at hgoes
      exact hgoes.elim nofun hmatched

variable {r r' : Registry R} {touched : List Point}

/-- A change of a rule writes the bonds that its rule says and no others. All bonds of its ends on
the board go whose particles change, and otherwise those that are matched; the created bonds are
written one after another. -/
theorem standing_commit (hg : g.gap? = none) (hs : g.field.Single) (he : e.Meets g)
    (hr : e.outcome.rule = some rule) (hb : e.bind g = .ok (true, f))
    (hc : f.commit g r = .ok (touched, g', r')) :
    ∃ matched created, Labels.Matches g rule (.ofEnds e.source e.target) f.labels matched ∧
      List.Forall₂ f.labels.Places rule.created created ∧
      g'.field.standing = created.foldl g.displace
        {b | b ∈ g.field.standing ∧ ∀ p ∈ e.ends, g.contains p = true →
          b.origin = p ∨ b.destination = p →
            (g'.get? p).map (·.particle) = (g.get? p).map (·.particle) ∧ b ∉ matched} ∧
      g'.gap? = none := by
  have hm := Grid.gap?_eq_none_iff.mp hg
  have hends := he.bind hb
  obtain ⟨plan, labels, rfl, hplan⟩ := bind_eq_true hr hb
  have hplanned := planned_planRule hplan
  have hw := hplanned.wellFormed
  obtain ⟨matched, hmatched⟩ := matches_planRule hs rfl hplan
  obtain ⟨-, -, -, -, -, hfor⟩ := planRule_eq_some hplan
  obtain ⟨created, hcreated, hfor⟩ := Option.bind_eq_some_iff.mp hfor
  cases hfor
  rw [commit_eq_ok hc]
  refine ⟨matched, created, hmatched, ?_, ?_, ?_⟩
  · exact (createdBonds_eq_some hcreated).imp fun _ _ h => h.1
  · rw [field_applied hw, Plan.standing_adds (Plan.wellFormed_drops _ (Plan.wellFormed_empty g))
      (Plan.mirrored_drops _ (Plan.field_empty g ▸ hm)), standing_drop_ends hm hs rfl hmatched.walk]
    congr 1
    ext b
    refine and_congr_right fun _ => forall_congr' fun p => forall_congr' fun hp =>
      forall_congr' fun hon => imp_congr_right fun _ => and_congr_left' ?_
    exact Bool.eq_false_iff.trans ((not_congr (changesAt_iff hends hw hp hon)).trans not_ne_iff)
  · rw [Grid.gap?_eq_none_iff, field_applied hw]
    exact hplanned.mirrored hm

/-- A particle moves and takes a matched bond along, another bond of the place that it moves to is
lost, and one between other cells stays. -/
theorem standing_commit_of_move :
    ∃ (e f : UpdateEvent ℝ) (g g' : Grid) (r r' : Registry ℝ) (rule : TransformRule ℝ)
      (touched : List Point) (matched created : List Bond),
      g.gap? = none ∧ g.field.Single ∧ e.Meets g ∧ e.outcome.rule = some rule ∧
      e.bind g = .ok (true, f) ∧ f.commit g r = .ok (touched, g', r') ∧
      g'.outgoing? ⟨0, 0⟩ "k" = some ⟨2, 0⟩ ∧ g'.outgoing? ⟨2, 0⟩ "j" = none ∧
      g'.outgoing? ⟨0, 0⟩ "m" = some ⟨3, 0⟩ ∧
      Labels.Matches g rule (.ofEnds e.source e.target) f.labels matched ∧
      g'.field.standing = created.foldl g.displace
        {b | b ∈ g.field.standing ∧ ∀ p ∈ e.ends, g.contains p = true →
          b.origin = p ∨ b.destination = p →
            (g'.get? p).map (·.particle) = (g.get? p).map (·.particle) ∧ b ∉ matched} := by
  let blank : Template := ⟨"", []⟩
  let rule : TransformRule ℝ := ⟨none, none, blank, blank, blank, blank, 1, blank,
    [⟨"x", "s", "k"⟩], [], [], [⟨"x", "sT", "k"⟩]⟩
  let i : ParticleId := ⟨0, 0⟩
  let a : ParticleId := ⟨1, 0⟩
  let g : Grid := ((((Grid.new 4 1 i).put ⟨1, 0⟩ a).writeBond ⟨⟨0, 0⟩, ⟨1, 0⟩, "k"⟩).writeBond
    ⟨⟨2, 0⟩, ⟨3, 0⟩, "j"⟩).writeBond ⟨⟨0, 0⟩, ⟨3, 0⟩, "m"⟩
  let r : Registry ℝ := .new ⟨.square4, [], [], [], []⟩ 8
  let e : UpdateEvent ℝ := .new ⟨1, 0⟩ ⟨2, 0⟩ 0 a i ⟨i, a, "", some rule⟩
  have hg : g.gap? = none := by decide +kernel
  have hs : g.field.Single := Grid.single_of_inside (Grid.gap?_eq_none_iff.mp hg) (by decide +kernel)
  have hsource : (g.get? ⟨1, 0⟩).map (·.particle) = some a := by decide +kernel
  have htarget : (g.get? ⟨2, 0⟩).map (·.particle) = some i := by decide +kernel
  have he : e.Meets g := by
    refine ⟨by decide, fun _ c hc => ?_, fun c hc => ?_⟩
    · exact Option.some.inj ((congrArg (·.map (·.particle)) hc).symm.trans hsource)
    · exact Option.some.inj ((congrArg (·.map (·.particle)) hc).symm.trans htarget)
  have hrun : ((e.bind g).toOption.any fun x => x.1 && (x.2.commit g r).toOption.any fun y =>
      y.2.1.outgoing? ⟨0, 0⟩ "k" == some ⟨2, 0⟩ && (y.2.1.outgoing? ⟨2, 0⟩ "j" == none &&
        y.2.1.outgoing? ⟨0, 0⟩ "m" == some ⟨3, 0⟩)) = true := by decide +kernel
  obtain ⟨⟨bound, f⟩, hb, hrest⟩ := any_toOption.mp hrun
  obtain ⟨rfl, hcommit⟩ := Bool.and_eq_true_iff.mp hrest
  obtain ⟨⟨touched, g', r'⟩, hc, hbonds⟩ := any_toOption.mp hcommit
  simp only [Bool.and_eq_true, beq_iff_eq] at hbonds
  obtain ⟨matched, created, hmatched, -, hstanding, -⟩ := standing_commit hg hs he rfl hb hc
  exact ⟨e, f, g, g', r, r', rule, touched, matched, created, hg, hs, he, rfl, hb, hc, hbonds.1,
    hbonds.2.1, hbonds.2.2, hmatched, hstanding⟩

end UpdateEvent

end ParticleAutomaton
