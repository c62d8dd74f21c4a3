import ParticleAutomaton.Proofs.BoundLabels

namespace ParticleAutomaton

namespace Labels

variable {g : Grid} {es : List BondExpr} {l m n : Labels} {bonds : List Bond} {x : BondExpr}

theorem unknown_iff : l.look g x = .unknown ↔
    l.get? x.origin = none ∧ l.get? x.destination = none := by
  constructor
  · intro h
    have hsees := l.sees_look g x
    rw [h] at hsees
    cases hsees with
    | dark ho hd => exact ⟨ho, hd⟩
  · rintro ⟨ho, hd⟩
    unfold look
    rw [ho, hd]

/-- A bond that is seen under some of the labels is the one that the expression has under all. -/
theorem Realizes.eq_of_look (hg : g.field.Mirrored) {c : Bond} (h : n.Realizes g x c)
    (hm : m.Extends n) {a b : Point} (hlook : m.look g x = .bond a b) :
    c.origin = a ∧ c.destination = b := by
  have hstands := (Grid.stands_iff hg).mp h.stands
  rw [← h.name] at hstands
  have hsees := m.sees_look g x
  rw [hlook] at hsees
  cases hsees with
  | between ho hd _ =>
    exact ⟨Option.some.inj (h.origin.symm.trans (hm.get? ho)),
      Option.some.inj (h.destination.symm.trans (hm.get? hd))⟩
  | ahead ho _ hout =>
    obtain rfl := Option.some.inj (h.origin.symm.trans (hm.get? ho))
    rw [if_pos (Grid.contains_of_outgoing hout), hout] at hstands
    refine ⟨rfl, ?_⟩
    rw [Option.some.inj hstands, Point.add_sub_cancel]
  | back _ hd hin =>
    obtain rfl := Option.some.inj (h.destination.symm.trans (hm.get? hd))
    have henters := h.stands.enters hg (Grid.holds_field.mpr (Grid.contains_of_incoming hin))
    rw [Grid.enters_field, ← h.name, hin] at henters
    refine ⟨?_, rfl⟩
    rw [Option.some.inj henters, Point.add_sub_cancel]

theorem Realizes.note {c : Bond} (h : n.Realizes g x c) (hm : m.Extends n) :
    (m.note x c.origin c.destination).Extends n := by
  refine ⟨fun {label p} hp => ?_, fun {e} he => ?_⟩
  · rw [get?_note, Option.or_eq_some_iff, Option.or_eq_some_iff] at hp
    rcases hp with (hp | ⟨-, hp⟩) | ⟨-, hp⟩
    · exact hm.get? hp
    · split at hp
      next hl =>
        cases hp
        exact hl ▸ h.origin
      next => exact nomatch hp
    · split at hp
      next hl =>
        cases hp
        exact hl ▸ h.destination
      next => exact nomatch hp
  · rw [found_note] at he
    rcases List.mem_cons.mp he with rfl | he
    · exact h.name ▸ h.found
    · exact hm.found he

/-- A walk finds nothing that settled labels do not have, in whatever order it goes. -/
theorem Walk.within (h : Walk g es l bonds m) (hg : g.field.Mirrored) (hn : n.Settled g es)
    (hl : l.Extends n) : m.Extends n := by
  induction h with
  | stay => exact hl
  | @step m bonds x a b _ hx hlook hm =>
    rcases hn x hx with hunknown | ⟨c, hc⟩
    · -- a bond is seen from a label that has a place, which stays
      obtain ⟨ho, hd⟩ := unknown_iff.mp hunknown
      have hreal := realizes_note hlook
      have hsees := m.sees_look g x
      rw [hlook] at hsees
      cases hsees with
      | between ho' _ _ => cases ho.symm.trans (hm.get? ho')
      | ahead ho' _ _ => cases ho.symm.trans (hm.get? ho')
      | back _ hd' _ => cases hd.symm.trans (hm.get? hd')
    · obtain ⟨rfl, rfl⟩ := hc.eq_of_look hg hm hlook
      exact hc.note hm

/-- An expression is told from one of its labels, whose place is off the grid. -/
def Blind (l : Labels) (g : Grid) (x : BondExpr) : Prop :=
  (∃ p, l.get? x.origin = some p ∧ l.get? x.destination = none ∧ g.contains p = false) ∨
    ∃ p, l.get? x.origin = none ∧ l.get? x.destination = some p ∧ g.contains p = false

/-- A bond that stands is missed only from off the grid. -/
theorem Realizes.blind (hg : g.field.Mirrored) {c : Bond} (h : n.Realizes g x c) (hm : m.Extends n)
    (hlook : m.look g x = .missing) : m.Blind g x := by
  have hsees := m.sees_look g x
  rw [hlook] at hsees
  cases hsees with
  | parted ho hd hnone =>
    obtain rfl := Option.some.inj (h.origin.symm.trans (hm.get? ho))
    obtain rfl := Option.some.inj (h.destination.symm.trans (hm.get? hd))
    exact absurd (h.name ▸ h.stands) (apart_of_missing hg hlook ho hd)
  | @deadEnd a ho hd hnone =>
    refine Or.inl ⟨a, ho, hd, Bool.eq_false_iff.mpr fun hc => ?_⟩
    obtain rfl := Option.some.inj (h.origin.symm.trans (hm.get? ho))
    exact absurd (h.name ▸ h.stands) (Grid.not_stands_of_outgoing hg hc hnone c.destination)
  | @noEntry b ho hd hnone =>
    refine Or.inr ⟨b, ho, hd, Bool.eq_false_iff.mpr fun hc => ?_⟩
    obtain rfl := Option.some.inj (h.destination.symm.trans (hm.get? hd))
    exact absurd (h.name ▸ h.stands) (Grid.not_stands_of_incoming hg hc hnone c.origin)

/-- Labels have the same places, and the same was found. -/
structure Same (l m : Labels) : Prop where
  get? : ∀ label, l.get? label = m.get? label
  found : ∀ e, e ∈ l.found ↔ e ∈ m.found

theorem Extends.same (h : l.Extends m) (k : m.Extends l) : l.Same m := by
  refine ⟨fun label => ?_, fun e => ⟨h.found, k.found⟩⟩
  cases hm : m.get? label with
  | some p => exact k.get? hm
  | none =>
    cases hl : l.get? label with
    | none => rfl
    | some p => exact (h.get? hl).symm.trans hm

namespace Same

theorem look (h : l.Same m) (x : BondExpr) : l.look g x = m.look g x := by
  unfold Labels.look
  rw [h.get?, h.get?]

theorem note (h : l.Same m) (x : BondExpr) (a b : Point) : (l.note x a b).Same (m.note x a b) := by
  refine ⟨fun label => ?_, fun e => ?_⟩
  · rw [get?_note, get?_note, h.get?]
  · rw [found_note, found_note, List.mem_cons, List.mem_cons, h.found]

theorem pass (h : l.Same m) (required : Bool) (es : List BondExpr) :
    (Labels.pass g required l es).1 = (Labels.pass g required m es).1 ∧
      (Labels.pass g required l es).2.Same (Labels.pass g required m es).2 := by
  induction es generalizing l m with
  | nil => exact ⟨rfl, h⟩
  | cons x es ih =>
    unfold Labels.pass
    rw [h.look x]
    split
    next a b _ => exact ih (h.note x a b)
    next =>
      split
      · exact ⟨rfl, h⟩
      · exact ih h
    next => exact ⟨congrArg (·.map (x :: ·)) (ih h).1, (ih h).2⟩

theorem resolveIn (h : l.Same m) (required : Bool) (fuel : Nat) (es : List BondExpr) :
    (Labels.resolveIn g required fuel l es).1 = (Labels.resolveIn g required fuel m es).1 ∧
      (Labels.resolveIn g required fuel l es).2.Same
        (Labels.resolveIn g required fuel m es).2 := by
  induction fuel generalizing l m es with
  | zero => exact ⟨rfl, h⟩
  | succ fuel ih =>
    obtain ⟨hrest, hlabels⟩ := h.pass (g := g) required es
    unfold Labels.resolveIn
    generalize Labels.pass g required l es = p at hrest hlabels
    generalize Labels.pass g required m es = q at hrest hlabels
    obtain ⟨rest, l'⟩ := p
    obtain ⟨rest', m'⟩ := q
    obtain rfl : rest = rest' := hrest
    cases rest with
    | none => exact ⟨rfl, hlabels⟩
    | some rest =>
      simp only
      split
      · exact ⟨rfl, hlabels⟩
      · split
        · exact ⟨rfl, hlabels⟩
        · exact ih hlabels rest

theorem resolve (h : l.Same m) (required : Bool) (es : List BondExpr) :
    (l.resolve g required es).1 = (m.resolve g required es).1 ∧
      (l.resolve g required es).2.Same (m.resolve g required es).2 := h.resolveIn ..

end Same

/-- Two searches for the same required bonds, in whatever order, find the same, or the one that
fails has missed a bond from off the grid. -/
theorem resolve_order (hg : g.field.Mirrored) {es' : List BondExpr} {done : Bool}
    (hes : ∀ x, x ∈ es' ↔ x ∈ es) (h : l.resolve g true es = (true, m))
    (h' : l.resolve g true es' = (done, n)) :
    done = true ∧ m.Same n ∨
      done = false ∧ n.Extends m ∧ ∃ x ∈ es, n.Blind g x ∧ ∃ b, m.Realizes g x b := by
  have hfound : ∀ x ∈ es, ∃ b, m.Realizes g x b := by
    rcases resolve_required h with ⟨-, hall⟩ | ⟨hfalse, -⟩
    · exact hall
    · exact nomatch hfalse
  have hall (x) (hx : x ∈ es') := hfound x ((hes x).mp hx)
  obtain ⟨_, hwalk⟩ := l.walk_resolve g true es
  obtain ⟨_, hwalk'⟩ := l.walk_resolve g true es'
  rw [h] at hwalk
  rw [h'] at hwalk'
  have hwithin : n.Extends m :=
    hwalk'.within hg (fun x hx => Or.inr (hall x hx)) hwalk.keeps
  have hsettled : n.Settled g es' → m.Extends n := by
    intro hn
    exact hwalk.within hg (fun x hx => hn x ((hes x).mpr hx)) hwalk'.keeps
  rcases resolve_required h' with ⟨hdone, hreal⟩ | ⟨hdone, ⟨x, hx, hmissing⟩ | ⟨hunknown, hn⟩⟩
  · exact Or.inl ⟨hdone, (hsettled fun x hx => Or.inr (hreal x hx)).same hwithin⟩
  · obtain ⟨b, hb⟩ := hall x hx
    exact Or.inr ⟨hdone, hwithin, x, (hes x).mp hx, hb.blind hg hwithin hmissing, b, hb⟩
  · obtain ⟨x, hx, hdark⟩ := hunknown
    obtain ⟨b, hb⟩ := hall x hx
    have hplace := (hsettled hn).get? hb.origin
    rw [(unknown_iff.mp hdark).1] at hplace
    exact nomatch hplace

end Labels

namespace UpdateEvent

variable {R : Type} {e f : UpdateEvent R} {g : Grid} {rule : TransformRule R} {l m n : Labels}

theorem planFor?_same (h : l.Same m) (e : UpdateEvent R) (g : Grid) (created : List BondExpr) :
    e.planFor? g l created = e.planFor? g m created := by
  have hbonds : createdBonds l created = createdBonds m created := by
    simp only [createdBonds, h.get?]
  have hfound : ∀ k, l.found.contains k = m.found.contains k := by
    intro k
    rw [Bool.eq_iff_iff, List.contains_iff_mem, List.contains_iff_mem, h.found]
  have hdropped : e.droppedAt g l = e.droppedAt g m := by
    funext p
    simp only [droppedAt, hfound]
  unfold planFor?
  rw [hbonds, hdropped]

/-- What is left to plan of a rule when its required bonds are found. -/
def planFound (e : UpdateEvent R) (g : Grid) (l : Labels) (rule : TransformRule R) :
    Option Plan × Labels :=
  let l := (l.resolve g false rule.optional).2
  if rule.excluded.any fun x => l.look g x != .missing then (none, l)
  else (e.planFor? g l rule.created, l)

theorem planFound_same (h : l.Same m) (e : UpdateEvent R) (g : Grid) (rule : TransformRule R) :
    (e.planFound g l rule).1 = (e.planFound g m rule).1 ∧
      (e.planFound g l rule).2.Same (e.planFound g m rule).2 := by
  have hlabels := (h.resolve (g := g) false rule.optional).2
  have hexcluded : (fun x => (l.resolve g false rule.optional).2.look g x != .missing) =
      fun x => (m.resolve g false rule.optional).2.look g x != .missing := by
    funext x
    rw [hlabels.look]
  unfold planFound
  simp only [hexcluded]
  split
  · exact ⟨rfl, hlabels⟩
  · exact ⟨planFor?_same hlabels e g rule.created, hlabels⟩

theorem planRule_eq (hlocal : ¬ (e.remote = true ∧ rule.hasBonds = true)) :
    e.planRule g l rule =
      if (l.resolve g true rule.required).1 = true then
        e.planFound g (l.resolve g true rule.required).2 rule
      else (none, (l.resolve g true rule.required).2) := by
  unfold planRule
  rw [if_neg hlocal]
  split
  next h => rw [h, if_neg (by simp)]
  next h =>
    rw [h, if_pos rfl]
    rfl

/-- Rules that differ in the order of their required bonds are planned alike, unless a search has
missed a bond from off the grid. -/
theorem planRule_order (hg : g.field.Mirrored) {required : List BondExpr}
    (hp : rule.required.Perm required) {plan : Plan}
    (h : e.planRule g l rule = (some plan, m)) :
    (e.planRule g l { rule with required }).1 = some plan ∧
        m.Same (e.planRule g l { rule with required }).2 ∨
      (e.planRule g l { rule with required }).1 = none ∧
        (e.planRule g l { rule with required }).2.Extends m ∧
        ∃ x ∈ rule.required, (e.planRule g l { rule with required }).2.Blind g x ∧
          ∃ b, m.Realizes g x b := by
  obtain ⟨hremote, l₁, hrequired, rfl, -⟩ := planRule_eq_some h
  have hlocal : ¬ (e.remote = true ∧ rule.hasBonds = true) :=
    fun hb => Bool.false_ne_true ((hremote hb.1).symm.trans hb.2)
  have hbonds : ({ rule with required } : TransformRule R).hasBonds = rule.hasBonds := by
    unfold TransformRule.hasBonds
    rw [hp.isEmpty_eq]
  obtain ⟨_, hoptional⟩ := l₁.walk_resolve g false rule.optional
  rw [planRule_eq hlocal, hrequired, if_pos rfl] at h
  rw [planRule_eq (hbonds ▸ hlocal)]
  obtain ⟨done, n, hn⟩ : ∃ done n, l.resolve g true required = (done, n) := ⟨_, _, rfl⟩
  simp only [hn]
  rcases Labels.resolve_order hg (fun x => hp.symm.mem_iff) hrequired hn with
    ⟨rfl, hsame⟩ | ⟨rfl, hwithin, x, hx, hblind, b, hb⟩
  · obtain ⟨hplan, hlabels⟩ := planFound_same hsame e g rule
    rw [h] at hplan hlabels
    exact Or.inl ⟨hplan.symm, hlabels⟩
  · exact Or.inr ⟨rfl, hwithin.trans hoptional.keeps, x, hx, hblind, b, hb.mono hoptional.keeps⟩

/-- The change by a rule whose required bonds are written in another order. -/
def reorder (e : UpdateEvent R) (rule : TransformRule R) (required : List BondExpr) :
    UpdateEvent R :=
  { e with outcome := { e.outcome with rule := some { rule with required } } }

theorem reorder_reorder (hr : e.outcome.rule = some rule) (required : List BondExpr) :
    (e.reorder rule required).reorder { rule with required } rule.required = e := by
  show { e with outcome := { e.outcome with rule := some rule } } = e
  rw [← hr]

/-- A required bond that stands is missed under some labels: it is told from one of its labels,
whose place is off the grid, and has its place under the others. -/
def Misses (g : Grid) (rule : TransformRule R) (missing found : Labels) : Prop :=
  ∃ x ∈ rule.required, missing.Blind g x ∧ ∃ b, found.Places x b ∧ g.field.Stands b ∧
    (g.contains b.origin = false ∨ g.contains b.destination = false)

/-- Binding by a rule in another order of its required bonds has the same effect, or misses one. -/
theorem bind_reorder (hg : g.field.Mirrored) (hr : e.outcome.rule = some rule)
    {required : List BondExpr} (hp : rule.required.Perm required)
    (hb : e.bind g = .ok (true, f)) :
    ∃ done f', (e.reorder rule required).bind g = .ok (done, f') ∧
      (done = true ∧ (∀ label, f'.label? label = f.label? label) ∧
          (∀ r : Registry R, f'.commit g r = f.commit g r) ∨
        done = false ∧ Misses g rule f'.labels f.labels) := by
  have hfresh := fresh_of_bind hb
  obtain ⟨plan, labels, rfl, hplan⟩ := bind_eq_true hr hb
  have hbind : (e.reorder rule required).bind g =
      .ok ((e.planRule g (.ofEnds e.source e.target) { rule with required }).1.isSome,
        { e.reorder rule required with
          bound := true
          labels := (e.planRule g (.ofEnds e.source e.target) { rule with required }).2
          plan := (e.planRule g (.ofEnds e.source e.target) { rule with required }).1.getD e.plan }) :=
    bind_rule rfl hfresh
  refine ⟨_, _, hbind, ?_⟩
  rcases planRule_order hg hp hplan with ⟨hsome, hsame⟩ | ⟨hnone, hwithin, x, hx, hblind, b, hb⟩
  · rw [hsome]
    exact Or.inl ⟨rfl, fun label => (hsame.get? label).symm, fun r => rfl⟩
  · rw [hnone]
    refine Or.inr ⟨rfl, x, hx, hblind, b, hb.toPlaces, hb.stands, ?_⟩
    rcases hblind with ⟨p, ho, -, hp⟩ | ⟨p, -, hd, hp⟩
    · obtain rfl := Option.some.inj (hb.origin.symm.trans (hwithin.get? ho))
      exact Or.inl hp
    · obtain rfl := Option.some.inj (hb.destination.symm.trans (hwithin.get? hd))
      exact Or.inr hp

/-- The order of required bonds does not matter, unless one of them is told from off the grid, where
it is missed in one order and found in another. -/
theorem bind_order {required : List BondExpr} {done : Bool} (hg : g.gap? = none)
    (hr : e.outcome.rule = some rule) (hp : rule.required.Perm required)
    (hb : e.bind g = .ok (done, f)) :
    ∃ done' f', (e.reorder rule required).bind g = .ok (done', f') ∧
      (done' = done ∧ (done = true → (∀ label, f'.label? label = f.label? label) ∧
          ∀ r : Registry R, f'.commit g r = f.commit g r) ∨
        done = true ∧ done' = false ∧ Misses g rule f'.labels f.labels ∨
        done = false ∧ done' = true ∧ Misses g rule f.labels f'.labels) := by
  have hm := Grid.gap?_eq_none_iff.mp hg
  cases done with
  | true =>
    obtain ⟨done', f', hb', ⟨rfl, hsame⟩ | ⟨rfl, hmiss⟩⟩ := bind_reorder hm hr hp hb
    · exact ⟨true, f', hb', Or.inl ⟨rfl, fun _ => hsame⟩⟩
    · exact ⟨false, f', hb', Or.inr (Or.inl ⟨rfl, rfl, hmiss⟩)⟩
  | false =>
    have hfresh := fresh_of_bind hb
    obtain ⟨done', f', hb'⟩ : ∃ done' f', (e.reorder rule required).bind g = .ok (done', f') :=
      ⟨_, _, bind_rule rfl hfresh⟩
    refine ⟨done', f', hb', ?_⟩
    cases done' with
    | false => exact Or.inl ⟨rfl, nofun⟩
    | true =>
      obtain ⟨back, f₀, hback, hcases⟩ := bind_reorder hm rfl hp.symm hb'
      rw [reorder_reorder hr, hb] at hback
      cases hback
      rcases hcases with ⟨hfalse, -⟩ | ⟨-, x, hx, hmiss⟩
      · exact nomatch hfalse
      · exact Or.inr (Or.inr ⟨rfl, rfl, x, hp.symm.mem_iff.mp hx, hmiss⟩)

/-- A bond that enters from off the grid is found when both of its labels have their places, and
missed when only the one off the grid has. -/
theorem bind_order_of_incoming :
    ∃ (e f f' : UpdateEvent ℝ) (g : Grid) (rule : TransformRule ℝ) (required : List BondExpr),
      g.gap? = none ∧ e.remote = false ∧ e.outcome.rule = some rule ∧
      rule.required.Perm required ∧ e.bind g = .ok (true, f) ∧
      (e.reorder rule required).bind g = .ok (false, f') ∧
      Misses g rule f'.labels f.labels := by
  let blank : Template := ⟨"", []⟩
  let outward : BondExpr := ⟨"s", "x", "k"⟩
  let across : BondExpr := ⟨"t", "y", "n"⟩
  let inward : BondExpr := ⟨"x", "y", "m"⟩
  let rule : TransformRule ℝ := ⟨none, none, blank, blank, blank, blank, 1, blank,
    [outward, across, inward], [], [], []⟩
  let i : ParticleId := ⟨0, 0⟩
  let g : Grid := (((Grid.new 2 2 i).writeBond ⟨⟨0, 0⟩, ⟨-1, 0⟩, "k"⟩).writeBond
    ⟨⟨1, 0⟩, ⟨0, 1⟩, "n"⟩).writeBond ⟨⟨-1, 0⟩, ⟨0, 1⟩, "m"⟩
  let e : UpdateEvent ℝ := .new ⟨0, 0⟩ ⟨1, 0⟩ 0 i i ⟨⟨1, 1⟩, i, "", some rule⟩
  have hg : g.gap? = none := by decide +kernel
  have hp : rule.required.Perm [outward, inward, across] := .cons outward (.swap inward across [])
  have hfirst : ((e.bind g).toOption.any fun x => x.1) = true := by decide +kernel
  have hsecond : (((e.reorder rule [outward, inward, across]).bind g).toOption.any fun x => !x.1) =
      true := by decide +kernel
  obtain ⟨⟨done, f⟩, hb, hdone⟩ := any_toOption.mp hfirst
  obtain rfl : done = true := hdone
  obtain ⟨⟨done', f'⟩, hb', hdone'⟩ := any_toOption.mp hsecond
  obtain rfl : done' = false := by simpa using hdone'
  obtain ⟨back, f₀, hback, hcases⟩ := bind_order hg (rfl : e.outcome.rule = some rule) hp hb
  rw [hb'] at hback
  cases hback
  rcases hcases with ⟨hfalse, -⟩ | ⟨-, -, hmiss⟩ | ⟨hfalse, -⟩
  · exact nomatch hfalse
  · exact ⟨e, f, f', g, rule, _, hg, rfl, rfl, hp, hb, hb', hmiss⟩
  · exact nomatch hfalse

end UpdateEvent

end ParticleAutomaton
