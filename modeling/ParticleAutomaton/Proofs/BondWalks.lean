import ParticleAutomaton.Proofs.Events

namespace ParticleAutomaton

namespace BondField

/-- A bond stands at one of its ends at least. -/
def Stands (F : BondField) (b : Bond) : Prop := F.Leaves b ∨ F.Enters b

variable {F : BondField} {b c : Bond}

theorem Stands.leaves (h : F.Stands b) (hm : F.Mirrored) (ho : F.Holds b.origin) :
    F.Leaves b := by
  rcases h with hl | he
  · exact hl
  · exact (hm b ho he.holds).mpr he

theorem Stands.enters (h : F.Stands b) (hm : F.Mirrored) (hd : F.Holds b.destination) :
    F.Enters b := by
  rcases h with hl | he
  · exact (hm b hl.holds hd).mp hl
  · exact he

/-- One bond of a name leaves a place at most. -/
theorem Leaves.unique (hb : F.Leaves b) (hc : F.Leaves c) (ho : b.origin = c.origin)
    (hn : b.name = c.name) : b = c := by
  have hleft : F.leaving? c.origin c.name = some b := leaving?_eq_some_iff.mpr ⟨hb, ho, hn⟩
  have hright : F.leaving? c.origin c.name = some c := leaving?_eq_some_iff.mpr ⟨hc, rfl, rfl⟩
  exact Option.some.inj (hleft.symm.trans hright)

end BondField

namespace Grid

variable {g : Grid} {b : Bond}

/-- A bond stands at its origin, or at its destination if its origin is off the grid. -/
theorem stands_iff (hm : g.field.Mirrored) : g.field.Stands b ↔
    if g.contains b.origin = true then g.outgoing? b.origin b.name = some (b.destination - b.origin)
    else g.incoming? b.destination b.name = some (b.origin - b.destination) := by
  rw [← leaves_field, ← enters_field]
  split
  next ho =>
    constructor
    · intro h
      exact h.leaves hm (holds_field.mpr ho)
    · exact Or.inl
  next ho =>
    constructor
    · intro h
      exact h.resolve_left fun hl => ho (holds_field.mp hl.holds)
    · exact Or.inr

theorem not_stands_of_outgoing (hm : g.field.Mirrored) {a : Point} {name : String}
    (ha : g.contains a = true) (h : g.outgoing? a name = none) (c : Point) :
    ¬ g.field.Stands ⟨a, c, name⟩ := by
  intro hs
  have hl := leaves_field.mp (hs.leaves hm (holds_field.mpr ha))
  rw [h] at hl
  exact nomatch hl

theorem not_stands_of_incoming (hm : g.field.Mirrored) {b : Point} {name : String}
    (hb : g.contains b = true) (h : g.incoming? b name = none) (c : Point) :
    ¬ g.field.Stands ⟨c, b, name⟩ := by
  intro hs
  have he := enters_field.mp (hs.enters hm (holds_field.mpr hb))
  rw [h] at he
  exact nomatch he

theorem contains_of_outgoing {a o : Point} {name : String} (h : g.outgoing? a name = some o) :
    g.contains a = true := by
  obtain ⟨c, hc, -⟩ := Option.bind_eq_some_iff.mp h
  exact contains_of_get? hc

theorem contains_of_incoming {a o : Point} {name : String} (h : g.incoming? a name = some o) :
    g.contains a = true := by
  obtain ⟨c, hc, -⟩ := Option.bind_eq_some_iff.mp h
  exact contains_of_get? hc

end Grid

namespace Labels

theorem get?_bind (l : Labels) (label other : String) (p : Point) :
    (l.bind label p).get? other = (l.get? other).or (if other = label then some p else none) := by
  unfold bind
  split
  next hsome =>
    by_cases he : other = label
    · rw [he]
      obtain ⟨q, hq⟩ := Option.isSome_iff_exists.mp hsome
      rw [hq]
      rfl
    · rw [if_neg he, Option.or_none]
  next =>
    show (l.places ++ [(label, p)]).lookup other = _
    rw [List.lookup_append]
    by_cases he : other = label
    · rw [he, if_pos rfl, List.lookup_cons_self]
      rfl
    · rw [if_neg he, lookup_cons_ne he]
      rfl

theorem get?_note (l : Labels) (x : BondExpr) (a b : Point) (label : String) :
    (l.note x a b).get? label =
      ((l.get? label).or (if label = x.origin then some a else none)).or
        (if label = x.destination then some b else none) := by
  show ((l.bind x.origin a).bind x.destination b).get? label = _
  rw [get?_bind, get?_bind]

theorem found_note (l : Labels) (x : BondExpr) (a b : Point) :
    (l.note x a b).found = (a, x.name) :: l.found := by
  have hbind : ∀ (l : Labels) label p, (l.bind label p).found = l.found := by
    intro l label p
    unfold bind
    split <;> rfl
  show _ :: ((l.bind x.origin a).bind x.destination b).found = _
  rw [hbind, hbind]

/-- All places of labels stay, and all that was found. -/
structure Extends (l m : Labels) : Prop where
  get? : ∀ {label p}, l.get? label = some p → m.get? label = some p
  found : ∀ {e}, e ∈ l.found → e ∈ m.found

namespace Extends

theorem refl (l : Labels) : l.Extends l := ⟨id, id⟩

theorem trans {l m n : Labels} (h : l.Extends m) (k : m.Extends n) : l.Extends n :=
  ⟨fun hl => k.get? (h.get? hl), fun he => k.found (h.found he)⟩

end Extends

theorem extends_note (l : Labels) (x : BondExpr) (a b : Point) : l.Extends (l.note x a b) := by
  refine ⟨fun {label p} h => ?_, fun {e} he => ?_⟩
  · rw [get?_note, h]
    rfl
  · rw [found_note]
    exact List.mem_cons_of_mem _ he

/-- An expression is a bond, with the places of its labels for its ends. -/
structure Places (l : Labels) (x : BondExpr) (b : Bond) : Prop where
  origin : l.get? x.origin = some b.origin
  destination : l.get? x.destination = some b.destination
  name : x.name = b.name

theorem Places.mono {l m : Labels} {x : BondExpr} {b : Bond} (h : l.Places x b)
    (hm : l.Extends m) : m.Places x b :=
  ⟨hm.get? h.origin, hm.get? h.destination, h.name⟩

/-- The bond of an expression was found and stands between the places of its labels. -/
structure Realizes (l : Labels) (g : Grid) (x : BondExpr) (b : Bond) : Prop extends
    l.Places x b where
  stands : g.field.Stands b
  found : (b.origin, b.name) ∈ l.found

theorem Realizes.mono {l m : Labels} {g : Grid} {x : BondExpr} {b : Bond}
    (h : l.Realizes g x b) (hm : l.Extends m) : m.Realizes g x b :=
  ⟨h.toPlaces.mono hm, h.stands, hm.found h.found⟩

variable {g : Grid}

/-- What is seen of an expression, by the places that its labels have. -/
inductive Sees (l : Labels) (g : Grid) (x : BondExpr) : Sighting → Prop
  | between {a b : Point} (ho : l.get? x.origin = some a) (hd : l.get? x.destination = some b)
      (h : g.outgoing? a x.name = some (b - a) ∨
        g.contains a = false ∧ g.incoming? b x.name = some (a - b)) : Sees l g x (.bond a b)
  | parted {a b : Point} (ho : l.get? x.origin = some a) (hd : l.get? x.destination = some b)
      (h : ¬ (g.outgoing? a x.name = some (b - a) ∨
        g.contains a = false ∧ g.incoming? b x.name = some (a - b))) : Sees l g x .missing
  | ahead {a o : Point} (ho : l.get? x.origin = some a) (hd : l.get? x.destination = none)
      (h : g.outgoing? a x.name = some o) : Sees l g x (.bond a (a + o))
  | deadEnd {a : Point} (ho : l.get? x.origin = some a) (hd : l.get? x.destination = none)
      (h : g.outgoing? a x.name = none) : Sees l g x .missing
  | back {b o : Point} (ho : l.get? x.origin = none) (hd : l.get? x.destination = some b)
      (h : g.incoming? b x.name = some o) : Sees l g x (.bond (b + o) b)
  | noEntry {b : Point} (ho : l.get? x.origin = none) (hd : l.get? x.destination = some b)
      (h : g.incoming? b x.name = none) : Sees l g x .missing
  | dark (ho : l.get? x.origin = none) (hd : l.get? x.destination = none) : Sees l g x .unknown

theorem sees_look (l : Labels) (g : Grid) (x : BondExpr) : l.Sees g x (l.look g x) := by
  unfold look
  split
  next a b ho hd =>
    have hoff : ¬ g.contains a = true ↔ g.contains a = false := Bool.eq_false_iff.symm
    split
    next h => exact .between ho hd (h.imp_right fun h => ⟨hoff.mp h.1, h.2⟩)
    next h => exact .parted ho hd (mt (Or.imp_right fun h => ⟨hoff.mpr h.1, h.2⟩) h)
  next a ho hd =>
    split
    next h => exact .ahead ho hd h
    next h => exact .deadEnd ho hd h
  next b ho hd =>
    split
    next h => exact .back ho hd h
    next h => exact .noEntry ho hd h
  next ho hd => exact .dark ho hd

/-- A bond that is seen stands, and noted it is that of the expression. -/
theorem realizes_note {l : Labels} {x : BondExpr} {a b : Point} (h : l.look g x = .bond a b) :
    (l.note x a b).Realizes g x ⟨a, b, x.name⟩ := by
  have hfound : (a, x.name) ∈ (l.note x a b).found := by
    rw [found_note]
    exact List.mem_cons_self ..
  have hsees := l.sees_look g x
  rw [h] at hsees
  cases hsees with
  | between ho hd hb =>
    have hstands : g.field.Stands ⟨a, b, x.name⟩ :=
      hb.imp Grid.leaves_field.mpr fun hb => Grid.enters_field.mpr hb.2
    exact ⟨⟨(l.extends_note x a b).get? ho, (l.extends_note x a b).get? hd, rfl⟩, hstands, hfound⟩
  | @ahead _ o ho hd hb =>
    have hne : x.destination ≠ x.origin := by
      intro he
      rw [he, ho] at hd
      exact nomatch hd
    have hdest : (l.note x a (a + o)).get? x.destination = some (a + o) := by
      rw [get?_note, hd, if_neg hne, if_pos rfl]
      rfl
    have hleaves : g.field.Leaves ⟨a, a + o, x.name⟩ := by
      rw [Grid.leaves_field, Point.add_sub_self]
      exact hb
    exact ⟨⟨(l.extends_note x _ _).get? ho, hdest, rfl⟩, Or.inl hleaves, hfound⟩
  | @back _ o ho hd hb =>
    have horigin : (l.note x (b + o) b).get? x.origin = some (b + o) := by
      rw [get?_note, ho, if_pos rfl]
      rfl
    have henters : g.field.Enters ⟨b + o, b, x.name⟩ := by
      rw [Grid.enters_field, Point.add_sub_self]
      exact hb
    exact ⟨⟨horigin, (l.extends_note x _ _).get? hd, rfl⟩, Or.inr henters, hfound⟩

/-- Labels that come of others as bonds of expressions are found one after another. -/
inductive Walk (g : Grid) (es : List BondExpr) : Labels → List Bond → Labels → Prop
  | stay (l : Labels) : Walk g es l [] l
  | step {l m : Labels} {bonds : List Bond} {x : BondExpr} {a b : Point} (h : Walk g es l bonds m)
      (hx : x ∈ es) (hb : m.look g x = .bond a b) :
      Walk g es l (bonds ++ [⟨a, b, x.name⟩]) (m.note x a b)

namespace Walk

variable {es : List BondExpr} {l m n : Labels} {bonds more : List Bond}

theorem trans (h : Walk g es l bonds m) (k : Walk g es m more n) :
    Walk g es l (bonds ++ more) n := by
  induction k with
  | stay => rwa [List.append_nil]
  | step _ hx hb ih =>
    rw [← List.append_assoc]
    exact .step ih hx hb

theorem mono (h : Walk g es l bonds m) {all : List BondExpr} (hsub : ∀ x ∈ es, x ∈ all) :
    Walk g all l bonds m := by
  induction h with
  | stay => exact .stay _
  | step _ hx hb ih => exact .step ih (hsub _ hx) hb

/-- No label loses its place. -/
theorem keeps (h : Walk g es l bonds m) : l.Extends m := by
  induction h with
  | stay => exact .refl _
  | step _ _ _ ih => exact ih.trans (extends_note ..)

/-- What was found is what the bonds of the walk are told by. -/
theorem found (h : Walk g es l bonds m) :
    m.found = (bonds.map fun b => (b.origin, b.name)).reverse ++ l.found := by
  induction h with
  | stay => rfl
  | step _ _ _ ih =>
    rw [found_note, ih]
    simp

/-- Each bond of a walk is in the end that of one of the expressions. -/
theorem realizes (h : Walk g es l bonds m) {b : Bond} (hb : b ∈ bonds) :
    ∃ x ∈ es, m.Realizes g x b := by
  induction h with
  | stay => exact nomatch hb
  | step _ hx hlook ih =>
    rcases List.mem_append.mp hb with hb | hb
    · obtain ⟨y, hy, hreal⟩ := ih hb
      exact ⟨y, hy, hreal.mono (extends_note ..)⟩
    · cases List.mem_singleton.mp hb
      exact ⟨_, hx, realizes_note hlook⟩

end Walk

/-- A pass is a walk. -/
theorem walk_pass (g : Grid) (required : Bool) (l : Labels) (es : List BondExpr) :
    ∃ bonds, Walk g es l bonds (pass g required l es).2 := by
  induction es generalizing l with
  | nil => exact ⟨[], .stay l⟩
  | cons x es ih =>
    have hrest : ∀ m, ∃ bonds, Walk g (x :: es) m bonds (pass g required m es).2 := by
      intro m
      obtain ⟨bonds, h⟩ := ih m
      exact ⟨bonds, h.mono fun y hy => List.mem_cons_of_mem x hy⟩
    unfold pass
    split
    next a b hlook =>
      obtain ⟨bonds, h⟩ := hrest (l.note x a b)
      exact ⟨_, (Walk.step (.stay l) (List.mem_cons_self ..) hlook).trans h⟩
    next =>
      split
      · exact ⟨[], .stay l⟩
      · exact hrest l
    next => exact hrest l

theorem rest_of_pass {required : Bool} {l l' : Labels} {es rest : List BondExpr}
    (h : pass g required l es = (some rest, l')) : ∀ x ∈ rest, x ∈ es := by
  induction es generalizing l rest with
  | nil =>
    cases h
    exact nofun
  | cons x es ih =>
    unfold pass at h
    split at h
    next => exact fun y hy => List.mem_cons_of_mem x (ih h y hy)
    next =>
      split at h
      · cases h
      · exact fun y hy => List.mem_cons_of_mem x (ih h y hy)
    next =>
      obtain ⟨hrest, hl⟩ := Prod.mk.inj h
      obtain ⟨more, hmore, rfl⟩ := Option.map_eq_some_iff.mp hrest
      intro y hy
      rcases List.mem_cons.mp hy with rfl | hy
      · exact List.mem_cons_self ..
      · exact List.mem_cons_of_mem x (ih (Prod.ext hmore hl) y hy)

/-- A pass that leaves as many expressions as there were has seen none of them. -/
theorem stuck_of_pass {required : Bool} {l l' : Labels} {es rest : List BondExpr}
    (h : pass g required l es = (some rest, l')) :
    rest.length ≤ es.length ∧
      (rest.length = es.length → l' = l ∧ ∀ x ∈ es, l.look g x = .unknown) := by
  induction es generalizing l rest with
  | nil =>
    cases h
    exact ⟨Nat.le_refl _, fun _ => ⟨rfl, nofun⟩⟩
  | cons x es ih =>
    have hshorter : ∀ {m}, pass g required m es = (some rest, l') → rest.length < es.length + 1 :=
      fun hm => Nat.lt_succ_of_le (ih hm).1
    unfold pass at h
    split at h
    next =>
      have hlt := hshorter h
      exact ⟨Nat.le_of_lt hlt, fun he => absurd he (Nat.ne_of_lt hlt)⟩
    next =>
      split at h
      · cases h
      · have hlt := hshorter h
        exact ⟨Nat.le_of_lt hlt, fun he => absurd he (Nat.ne_of_lt hlt)⟩
    next hlook =>
      obtain ⟨hrest, hl⟩ := Prod.mk.inj h
      obtain ⟨more, hmore, rfl⟩ := Option.map_eq_some_iff.mp hrest
      obtain ⟨hle, hstuck⟩ := ih (Prod.ext hmore hl)
      refine ⟨Nat.succ_le_succ hle, fun he => ?_⟩
      obtain ⟨rfl, hall⟩ := hstuck (Nat.succ.inj he)
      exact ⟨rfl, List.forall_mem_cons.mpr ⟨hlook, hall⟩⟩

/-- The bond of an expression was found, or it was missing when it was looked for and this is no
failure. -/
def Met (g : Grid) (required : Bool) (es : List BondExpr) (l m : Labels) (x : BondExpr) : Prop :=
  (∃ b, m.Realizes g x b) ∨ required = false ∧ ∃ k before after,
    Walk g es l before k ∧ k.look g x = .missing ∧ Walk g es k after m

namespace Met

variable {required : Bool} {es : List BondExpr} {l m n : Labels} {bonds : List Bond}
  {x : BondExpr}

theorem walk (h : Met g required es l m x) (k : Walk g es m bonds n) :
    Met g required es l n x := by
  rcases h with ⟨b, hb⟩ | ⟨hreq, o, before, after, ho, hlook, hm⟩
  · exact Or.inl ⟨b, hb.mono k.keeps⟩
  · exact Or.inr ⟨hreq, o, before, _, ho, hlook, hm.trans k⟩

theorem after (h : Met g required es m n x) (k : Walk g es l bonds m) :
    Met g required es l n x := by
  rcases h with hb | ⟨hreq, o, before, after, ho, hlook, hn⟩
  · exact Or.inl hb
  · exact Or.inr ⟨hreq, o, _, after, k.trans ho, hlook, hn⟩

theorem mono (h : Met g required es l m x) {all : List BondExpr} (hsub : ∀ y ∈ es, y ∈ all) :
    Met g required all l m x := by
  rcases h with hb | ⟨hreq, o, before, after, ho, hlook, hm⟩
  · exact Or.inl hb
  · exact Or.inr ⟨hreq, o, before, after, ho.mono hsub, hlook, hm.mono hsub⟩

theorem realizes (h : Met g true es l m x) : ∃ b, m.Realizes g x b := by
  rcases h with hb | ⟨hreq, -⟩
  · exact hb
  · exact nomatch hreq

end Met

/-- What a pass does not leave has been met. -/
theorem met_of_pass {required : Bool} {l l' : Labels} {es rest : List BondExpr}
    (h : pass g required l es = (some rest, l')) :
    ∀ x ∈ es, x ∈ rest ∨ Met g required es l l' x := by
  induction es generalizing l rest with
  | nil => exact nofun
  | cons x es ih =>
    have hsub : ∀ y ∈ es, y ∈ x :: es := fun y hy => List.mem_cons_of_mem x hy
    have hwalk : ∀ m, ∃ bonds, Walk g (x :: es) m bonds (pass g required m es).2 := by
      intro m
      obtain ⟨bonds, hm⟩ := walk_pass g required m es
      exact ⟨bonds, hm.mono hsub⟩
    unfold pass at h
    split at h
    next a b hlook =>
      have hstep := Walk.step (.stay l) (List.mem_cons_self (l := es)) hlook
      obtain ⟨bonds, hrest⟩ := hwalk (l.note x a b)
      rw [h] at hrest
      refine List.forall_mem_cons.mpr ⟨Or.inr (Or.inl ⟨_, (realizes_note hlook).mono hrest.keeps⟩),
        fun y hy => ?_⟩
      exact (ih h y hy).imp_right fun hmet => (hmet.mono hsub).after hstep
    next hlook =>
      split at h
      next => cases h
      next hreq =>
        obtain ⟨bonds, hrest⟩ := hwalk l
        rw [h] at hrest
        refine List.forall_mem_cons.mpr ⟨Or.inr (Or.inr ⟨Bool.eq_false_iff.mpr hreq, l, [], bonds,
          .stay l, hlook, hrest⟩), fun y hy => ?_⟩
        exact (ih h y hy).imp_right fun hmet => hmet.mono hsub
    next =>
      obtain ⟨hrest, hl⟩ := Prod.mk.inj h
      obtain ⟨more, hmore, rfl⟩ := Option.map_eq_some_iff.mp hrest
      refine List.forall_mem_cons.mpr ⟨Or.inl (List.mem_cons_self ..), fun y hy => ?_⟩
      exact (ih (Prod.ext hmore hl) y hy).imp (List.mem_cons_of_mem x) fun hmet => hmet.mono hsub

/-- A pass ends early at a required bond that is missing. -/
theorem missing_of_pass {required : Bool} {l l' : Labels} {es : List BondExpr}
    (h : pass g required l es = (none, l')) :
    required = true ∧ ∃ x ∈ es, l'.look g x = .missing := by
  induction es generalizing l with
  | nil => cases h
  | cons x es ih =>
    have hrest : ∀ {m}, pass g required m es = (none, l') →
        required = true ∧ ∃ y ∈ x :: es, l'.look g y = .missing := by
      intro m hm
      obtain ⟨hreq, y, hy, hlook⟩ := ih hm
      exact ⟨hreq, y, List.mem_cons_of_mem x hy, hlook⟩
    unfold pass at h
    split at h
    next => exact hrest h
    next hlook =>
      split at h
      next hreq =>
        cases h
        exact ⟨hreq, x, List.mem_cons_self .., hlook⟩
      next => exact hrest h
    next =>
      obtain ⟨hnone, hl⟩ := Prod.mk.inj h
      exact hrest (Prod.ext (Option.map_eq_none_iff.mp hnone) hl)

theorem walk_resolveIn (g : Grid) (required : Bool) (fuel : Nat) (l : Labels)
    (es : List BondExpr) : ∃ bonds, Walk g es l bonds (resolveIn g required fuel l es).2 := by
  induction fuel generalizing l es with
  | zero => exact ⟨[], .stay l⟩
  | succ fuel ih =>
    obtain ⟨bonds, hpass⟩ := walk_pass g required l es
    unfold resolveIn
    split
    next l' h =>
      rw [h] at hpass
      exact ⟨bonds, hpass⟩
    next rest l' h =>
      rw [h] at hpass
      split
      · exact ⟨bonds, hpass⟩
      · split
        · exact ⟨bonds, hpass⟩
        · obtain ⟨more, hmore⟩ := ih l' rest
          exact ⟨_, hpass.trans (hmore.mono (rest_of_pass h))⟩

theorem walk_resolve (l : Labels) (g : Grid) (required : Bool) (es : List BondExpr) :
    ∃ bonds, Walk g es l bonds (l.resolve g required es).2 := walk_resolveIn ..

/-- A search ends early at a required bond that is missing, or with expressions left that cannot be
reached, which is a failure if they are required. -/
theorem resolveIn_cases {required done : Bool} {all : List BondExpr} {fuel : Nat}
    {l₀ l l' : Labels} {es : List BondExpr} {bonds : List Bond} (hfuel : es.length < fuel)
    (hsub : ∀ x ∈ es, x ∈ all) (hwalk : Walk g all l₀ bonds l)
    (hall : ∀ x ∈ all, x ∈ es ∨ Met g required all l₀ l x)
    (h : resolveIn g required fuel l es = (done, l')) :
    required = true ∧ done = false ∧ (∃ x ∈ all, l'.look g x = .missing) ∨
      ∃ rest, (done = true ↔ rest = [] ∨ required = false) ∧
        (∀ x ∈ rest, x ∈ all ∧ l'.look g x = .unknown) ∧
        ∀ x ∈ all, x ∈ rest ∨ Met g required all l₀ l' x := by
  induction fuel generalizing l es bonds with
  | zero => exact absurd hfuel (Nat.not_lt_zero _)
  | succ fuel ih =>
    unfold resolveIn at h
    split at h
    next l₁ hpass =>
      cases h
      obtain ⟨hreq, x, hx, hlook⟩ := missing_of_pass hpass
      exact Or.inl ⟨hreq, rfl, x, hsub x hx, hlook⟩
    next rest l₁ hpass =>
      obtain ⟨more, hmore⟩ := walk_pass g required l es
      rw [hpass] at hmore
      have hnext := hmore.mono hsub
      have hleft : ∀ x ∈ all, x ∈ rest ∨ Met g required all l₀ l₁ x := by
        intro x hx
        rcases hall x hx with hx | hmet
        · exact (met_of_pass hpass x hx).imp_right fun hmet => (hmet.mono hsub).after hwalk
        · exact Or.inr (hmet.walk hnext)
      have hrest : ∀ x ∈ rest, x ∈ all := fun x hx => hsub x (rest_of_pass hpass x hx)
      obtain ⟨hle, hstuck⟩ := stuck_of_pass hpass
      split at h
      next hempty =>
        cases h
        have hnil := List.isEmpty_iff.mp hempty
        refine Or.inr ⟨rest, iff_of_true rfl (Or.inl hnil), fun x hx => ?_, hleft⟩
        rw [hnil] at hx
        exact nomatch hx
      next hne =>
        split at h
        next hlen =>
          cases h
          obtain ⟨rfl, hunknown⟩ := hstuck hlen
          refine Or.inr ⟨rest, ?_, fun x hx => ⟨hrest x hx, hunknown x (rest_of_pass hpass x hx)⟩,
            hleft⟩
          simp [mt List.isEmpty_iff.mpr hne]
        next hlen =>
          have hlt : rest.length < es.length := Nat.lt_of_le_of_ne hle hlen
          exact ih (by omega) hrest (hwalk.trans hnext) hleft h

/-- Each expression has its bond, or none of its labels has a place. -/
def Settled (l : Labels) (g : Grid) (es : List BondExpr) : Prop :=
  ∀ x ∈ es, l.look g x = .unknown ∨ ∃ b, l.Realizes g x b

/-- The search for required bonds goes on until all are found, one is missing, or the rest cannot
be reached. -/
theorem resolve_required {l l' : Labels} {es : List BondExpr} {done : Bool}
    (h : l.resolve g true es = (done, l')) :
    done = true ∧ (∀ x ∈ es, ∃ b, l'.Realizes g x b) ∨
      done = false ∧ ((∃ x ∈ es, l'.look g x = .missing) ∨
        (∃ x ∈ es, l'.look g x = .unknown) ∧ l'.Settled g es) := by
  have hcases := resolveIn_cases (Nat.lt_succ_self _) (fun _ => id) (.stay l) (fun _ => Or.inl) h
  rcases hcases with ⟨-, hdone, hmissing⟩ | ⟨rest, hdone, hunknown, hall⟩
  · exact Or.inr ⟨hdone, Or.inl hmissing⟩
  · cases rest with
    | nil =>
      refine Or.inl ⟨hdone.mpr (Or.inl rfl), fun x hx => ?_⟩
      exact ((hall x hx).resolve_left nofun).realizes
    | cons y rest =>
      refine Or.inr ⟨Bool.eq_false_iff.mpr (by simp [hdone]), Or.inr ⟨⟨y, ?_⟩, fun x hx => ?_⟩⟩
      · exact hunknown y (List.mem_cons_self ..)
      · exact (hall x hx).imp (fun hx => (hunknown x hx).2) Met.realizes

/-- The search for optional bonds leaves what cannot be reached, and passes over what is missing. -/
theorem resolve_optional {l l' : Labels} {es : List BondExpr} {done : Bool}
    (h : l.resolve g false es = (done, l')) :
    ∀ x ∈ es, l'.look g x = .unknown ∨ Met g false es l l' x := by
  have hcases := resolveIn_cases (Nat.lt_succ_self _) (fun _ => id) (.stay l) (fun _ => Or.inl) h
  rcases hcases with ⟨hreq, -⟩ | ⟨rest, -, hunknown, hall⟩
  · exact nomatch hreq
  · exact fun x hx => (hall x hx).imp_left fun hx => (hunknown x hx).2

end Labels

end ParticleAutomaton
