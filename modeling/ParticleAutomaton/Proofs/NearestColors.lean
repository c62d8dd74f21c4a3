import ParticleAutomaton.Proofs.PaintedCells

namespace ParticleAutomaton

/-- The nearer one of two entries, and the first one of equals. -/
def nearer (c : Color) (best e : String × Color) : String × Color :=
  if c.distance e.2 < c.distance best.2 then e else best

theorem nearest_foldl (c : Color) (entries : List (String × Color)) (best : String × Color) :
    entries.foldl (nearer c) best ∈ best :: entries ∧
      ∀ e ∈ best :: entries, c.distance (entries.foldl (nearer c) best).2 ≤ c.distance e.2 := by
  induction entries generalizing best with
  | nil => simp
  | cons entry entries ih =>
    obtain ⟨hmem, hle⟩ := ih (nearer c best entry)
    have hstep : (nearer c best entry = best ∨ nearer c best entry = entry) ∧
        c.distance (nearer c best entry).2 ≤ c.distance best.2 ∧
        c.distance (nearer c best entry).2 ≤ c.distance entry.2 := by
      unfold nearer
      split
      next hlt => exact ⟨Or.inr rfl, hlt.le, le_rfl⟩
      next hge => exact ⟨Or.inl rfl, le_rfl, not_lt.mp hge⟩
    obtain ⟨hone, hbest, hentry⟩ := hstep
    have hfirst := hle _ List.mem_cons_self
    rw [List.foldl_cons]
    refine ⟨?_, fun e he => ?_⟩
    · rcases List.mem_cons.mp hmem with he | he
      · rw [he]
        rcases hone with hone | hone <;> simp [hone]
      · exact List.mem_cons_of_mem _ (List.mem_cons_of_mem _ he)
    · rcases List.mem_cons.mp he with rfl | he
      · exact hfirst.trans hbest
      · rcases List.mem_cons.mp he with rfl | he
        · exact hfirst.trans hentry
        · exact hle e (List.mem_cons_of_mem _ he)

/-- What is chosen is listed with a color that no listed one is nearer than. -/
theorem exists_of_nearest? {c : Color} {entries : List (String × Color)} {name : String}
    (h : nearest? c entries = some name) :
    ∃ color, (name, color) ∈ entries ∧ ∀ e ∈ entries, c.distance color ≤ c.distance e.2 := by
  cases entries with
  | nil => exact nomatch h
  | cons entry entries =>
    obtain ⟨hmem, hle⟩ := nearest_foldl c entries entry
    cases Option.some.inj h
    exact ⟨_, hmem, hle⟩

theorem exists_nearest? {c : Color} {entries : List (String × Color)} (h : entries ≠ []) :
    ∃ name, nearest? c entries = some name := by
  cases entries with
  | nil => exact absurd rfl h
  | cons entry entries => exact ⟨_, rfl⟩

namespace Board

variable {R γ : Type}

/-- The cells of a board that lie on an image. -/
def cellsUnder (b : Board R γ) (image : Image) : List Point :=
  b.grid.points.filter fun p => p.x < image.width ∧ p.y < image.height

section

variable [Scalar R] (b : Board R γ)

/-- The color that a cell shows. -/
def color? (p : Point) : Option Color :=
  (b.grid.get? p).bind fun cell => (b.registry.get? cell.particle).map (·.appearance.color)

/-- The color that a particle shows when it takes a name. -/
def shownColor (name : String) : Color :=
  (b.registry.rules.appearance (Text.truncate b.registry.maxNameLen name)).color

/-- The names that rules or particles have, as far as particles can have them, with the colors that
their particles show. -/
inductive Knows : String → Color → Prop
  | rule {name color} (h : (name, color) ∈ b.registry.rules.literals)
    (hn : name.utf8ByteSize ≤ b.registry.maxNameLen) :
    Knows name (b.registry.rules.appearance name).color
  | particle {id p} (h : b.registry.get? id = some p) : Knows p.name p.appearance.color

/-- All rules for a name alone give it the color that its particle shows, which they do unless an
earlier rule is for the name too, or it is cut. -/
def ListsTruly (name : String) : Prop :=
  ∀ color, (name, color) ∈ b.registry.rules.literals → color = b.shownColor name

end

/-- A particle is listed under its name, unless the name is listed already. -/
def listParticle (known : List (String × Color)) (e : ParticleId × Particle R) :
    List (String × Color) :=
  if known.any (·.1 == e.2.name) then known else known ++ [(e.2.name, e.2.appearance.color)]

theorem palette_eq (b : Board R γ) :
    b.palette = b.registry.particles.toList.foldl listParticle b.registry.rules.literals := rfl

section

variable {es : List (ParticleId × Particle R)} {known : List (String × Color)}

theorem mem_listed {x : String × Color} (h : x ∈ es.foldl listParticle known) :
    x ∈ known ∨ ∃ e ∈ es, x = (e.2.name, e.2.appearance.color) := by
  induction es generalizing known with
  | nil => exact Or.inl h
  | cons e es ih =>
    rcases ih h with hx | ⟨e', he', rfl⟩
    · unfold listParticle at hx
      split at hx
      next => exact Or.inl hx
      next =>
        rcases List.mem_append.mp hx with hx | hx
        · exact Or.inl hx
        · exact Or.inr ⟨e, List.mem_cons_self, List.mem_singleton.mp hx⟩
    · exact Or.inr ⟨e', List.mem_cons_of_mem _ he', rfl⟩

theorem listed_of_mem {x : String × Color} (h : x ∈ known) : x ∈ es.foldl listParticle known := by
  induction es generalizing known with
  | nil => exact h
  | cons e es ih =>
    refine ih ?_
    unfold listParticle
    split
    next => exact h
    next => exact List.mem_append_left _ h

/-- Each particle is listed under some color. -/
theorem exists_listed {e : ParticleId × Particle R} (h : e ∈ es) :
    ∃ color, (e.2.name, color) ∈ es.foldl listParticle known := by
  induction es generalizing known with
  | nil => exact nomatch h
  | cons e' es ih =>
    rcases List.mem_cons.mp h with rfl | h
    · have hone : ∃ color, (e.2.name, color) ∈ listParticle known e := by
        unfold listParticle
        split
        next hany =>
          obtain ⟨x, hx, hn⟩ := List.any_eq_true.mp hany
          exact ⟨x.2, beq_iff_eq.mp hn ▸ hx⟩
        next => exact ⟨_, List.mem_append_right _ (List.mem_singleton.mpr rfl)⟩
      obtain ⟨color, hcolor⟩ := hone
      refine ⟨color, ?_⟩
      rw [List.foldl_cons]
      exact listed_of_mem hcolor
    · exact ih h

end

section

variable [Scalar R] {b : Board R γ} (hs : b.registry.Sound)

include hs

/-- The look of a particle is that of its name. -/
theorem color_of_get? {id : ParticleId} {p : Particle R} (h : b.registry.get? id = some p) :
    p.appearance.color = b.shownColor p.name := by
  have hfits := hs.fits h
  rw [shownColor, hfits.bounded, hfits.appearance]

theorem color_of_mem_palette {name : String} {color : Color} (h : (name, color) ∈ b.palette)
    (ht : b.ListsTruly name) : color = b.shownColor name := by
  rcases mem_listed (b.palette_eq ▸ h) with h | ⟨⟨id, p⟩, hp, he⟩
  · exact ht color h
  · obtain ⟨rfl, rfl⟩ := Prod.mk.inj he
    exact color_of_get? hs (Arena.mem_toList.mp hp)

theorem Knows.color_eq {name : String} {color : Color} (h : b.Knows name color) :
    color = b.shownColor name := by
  cases h with
  | rule _ hn => rw [shownColor, Text.truncate_of_le hn]
  | particle h => exact color_of_get? hs h

omit [Scalar R] hs in
theorem Knows.listed {name : String} {color : Color} (h : b.Knows name color) :
    ∃ listed, (name, listed) ∈ b.palette := by
  rw [palette_eq]
  cases h with
  | rule h _ => exact ⟨_, listed_of_mem h⟩
  | particle h => exact exists_listed (Arena.mem_toList.mpr h)

/-- Where lists tell the truth, the name that is chosen shows the nearest color. -/
theorem distance_shownColor {c : Color} {name : String} (h : nearest? c b.palette = some name)
    (ht : b.ListsTruly name) {other : String} {color : Color} (hk : b.Knows other color)
    (ho : b.ListsTruly other) : c.distance (b.shownColor name) ≤ c.distance color := by
  obtain ⟨chosen, hchosen, hle⟩ := exists_of_nearest? h
  obtain ⟨listed, hlisted⟩ := hk.listed
  calc c.distance (b.shownColor name) = c.distance chosen := by
        rw [color_of_mem_palette hs hchosen ht]
    _ ≤ c.distance listed := hle (other, listed) hlisted
    _ = c.distance color := by rw [hk.color_eq hs, color_of_mem_palette hs hlisted ho]

end

/-- A cell shows the look of the name of its particle. -/
theorem Alike.color?_eq [Scalar R] {b : Board R γ} (h : b.Alike b) {p : Point} {name : String}
    (hp : b.particleName? p = some name) :
    b.color? p = some (b.registry.rules.appearance name).color := by
  obtain ⟨cell, hcell, hname⟩ := Option.map_eq_some_iff.mp hp
  obtain ⟨n, hn⟩ := h.named hcell
  obtain ⟨particle, hparticle, rfl⟩ := Registry.get?_of_name? hn
  rw [Registry.name_of hn] at hname
  rw [color?, hcell, Option.bind_some, hparticle, Option.map_some, ← hname,
    (h.sound.fits hparticle).appearance]

theorem mem_cellsUnder {b : Board R γ} {image : Image} {p : Point} :
    p ∈ b.cellsUnder image ↔
      b.grid.contains p = true ∧ p.x < image.width ∧ p.y < image.height := by
  rw [cellsUnder, List.mem_filter, Grid.mem_points, decide_eq_true_eq]

/-- The points that are painted are those of the cells under the image. -/
theorem perm_cellsUnder (b : Board R γ) (image : Image) :
    (Grid.pointsOf (min b.width image.width) (min b.height image.height)).Perm
      (b.cellsUnder image) := by
  refine (List.perm_ext_iff_of_nodup (Grid.nodup_pointsOf _ _)
    (b.grid.nodup_points.filter _)).mpr fun p => ?_
  change _ ↔ p ∈ b.cellsUnder image
  rw [mem_cellsUnder, Grid.mem_pointsOf, Grid.contains_iff, width, height]
  omega

/-- A cell has been painted: it shows a name that is listed with a color as near as any. If all
lists of that name tell the truth, the color that it shows is as near as that of any other known
particle of which this holds. -/
structure ShowsNearest [Scalar R] (b c : Board R γ) (pixel : Color) (p : Point) (name : String) :
    Prop where
  shown : c.particleName? p = some (Text.truncate b.registry.maxNameLen name)
  color : c.color? p = some (b.shownColor name)
  listed : ∃ color, (name, color) ∈ b.palette ∧
    ∀ e ∈ b.palette, pixel.distance color ≤ pixel.distance e.2
  nearest : b.ListsTruly name → ∀ {other color}, b.Knows other color → b.ListsTruly other →
    pixel.distance (b.shownColor name) ≤ pixel.distance color

variable [ShareScalar R] [Generator R γ] [MessageReader R]

/-- To paint a board gives each cell under the image the nearest of the known particles, as far as
their lists tell the truth, and counts these cells. All others are as before, but for their bonds
with the painted ones. -/
theorem paint_nearest {b : Board R γ} (h : b.Reachable) (hd : b.registry.rules.Declared)
    (image : Image) :
    ∃ c, b.paint image = .ok ((b.cellsUnder image).length, c) ∧
      (∀ p ∈ b.cellsUnder image, ∃ name,
        b.ShowsNearest c (image.pixel p.x.toNat p.y.toNat) p name) ∧
      (∀ p ∉ b.cellsUnder image,
        c.particleName? p = b.particleName? p ∧ c.writes? p = b.writes? p) ∧
      ∀ k, (c.grid.field.Leaves k ↔
          b.grid.field.Leaves k ∧ ∀ p ∈ b.cellsUnder image, ¬ k.EndsAt p) ∧
        (c.grid.field.Enters k ↔
          b.grid.field.Enters k ∧ ∀ p ∈ b.cellsUnder image, ¬ k.EndsAt p) := by
  have hready := h.ready hd.probable
  let points := Grid.pointsOf (min b.width image.width) (min b.height image.height)
  have hperm : points.Perm (b.cellsUnder image) := b.perm_cellsUnder image
  have hcontains : ∀ p ∈ points, b.grid.contains p = true := fun p hp =>
    (mem_cellsUnder.mp (hperm.mem_iff.mp hp)).1
  let choice (p : Point) := nearest? (image.pixel p.x.toNat p.y.toNat) b.palette
  -- A cell is there, so its particle is in the palette and there is a choice.
  have hchoice : ∀ p ∈ points, choice p = some ((choice p).getD "") := by
    intro p hp
    obtain ⟨cell, hcell⟩ := Grid.get?_of_contains (hcontains p hp)
    obtain ⟨name, hname⟩ := hready.alike.named hcell
    obtain ⟨particle, hparticle, -⟩ := Registry.get?_of_name? hname
    obtain ⟨listed, hlisted⟩ := (Knows.particle hparticle).listed
    obtain ⟨chosen, hchosen⟩ : ∃ chosen, choice p = some chosen :=
      exists_nearest? (List.ne_nil_of_mem hlisted)
    rw [hchosen, Option.getD_some]
  obtain ⟨c, hpaint, hc, hrecast⟩ := hready.recast_foldlM hcontains hchoice 0
  rw [Nat.zero_add, hperm.length_eq] at hpaint
  refine ⟨c, (b.paint_eq image).trans hpaint, fun p hp => ⟨(choice p).getD "", ?_⟩,
    fun p hp => hrecast.others (mt hperm.mem_iff.mp hp), fun k => ⟨?_, ?_⟩⟩
  · have hp := hperm.mem_iff.mpr hp
    have hshown := hrecast.shown hp
    refine ⟨hshown, ?_, exists_of_nearest? (hchoice p hp),
      distance_shownColor hready.alike.sound (hchoice p hp)⟩
    rw [hc.alike.color?_eq hshown, hrecast.retains.rules]
    rfl
  · rw [hrecast.leaves]
    exact and_congr_right fun _ => forall_congr' fun p => imp_congr_left hperm.mem_iff
  · rw [hrecast.enters]
    exact and_congr_right fun _ => forall_congr' fun p => imp_congr_left hperm.mem_iff

/-- Of a board of two cells the first one is painted, nearly in the color of sand. -/
theorem paint_nearest_of_sand :
    ∃ (b c : Board Float RandomSource) (image : Image) (color : Color),
      b.Reachable ∧ b.paint image = .ok (1, c) ∧ c.color? ⟨0, 0⟩ = some color ∧
      (image.pixel 0 0).distance color ≤ (image.pixel 0 0).distance ⟨200, 180, 90⟩ ∧
      c.particleName? ⟨1, 0⟩ = b.particleName? ⟨1, 0⟩ := by
  let records : RuleRecords Float :=
    ⟨[{ pattern := some "sand", color := ⟨200, 180, 90⟩ },
      { pattern := some "water", color := ⟨20, 40, 220⟩ }], [], []⟩
  have hread : ((Rulebook.ofRecords? .square4 records).toOption.any fun rules =>
      rules.literals = [("sand", ⟨200, 180, 90⟩), ("water", ⟨20, 40, 220⟩)] ∧
        (rules.appearance "sand").color = ⟨200, 180, 90⟩ ∧
        (rules.appearance "water").color = ⟨20, 40, 220⟩) = true := by
    decide +kernel
  obtain ⟨rules, hrules, hlists⟩ := any_toOption.mp hread
  obtain ⟨hliterals, hsand, hwater⟩ := of_decide_eq_true hlists
  have hdeclared : rules.Declared := ⟨_, _, hrules⟩
  let config : BoardConfig := { width := 2, height := 1, topology := rules.topology }
  have hv : config.validate = .ok () := rfl
  obtain ⟨b, hb, hbrules, hconfig, ⟨filler, hgrid⟩, -⟩ :=
    declared_new (RandomSource.ofMix 0) hv hdeclared rfl
  have hlen : b.registry.maxNameLen = 256 := by
    rw [hb.wellFormed.maxNameLen, hconfig]
    rfl
  have hshort : ∀ name : String, name.utf8ByteSize ≤ 256 →
      b.shownColor name = (rules.appearance name).color := by
    intro name hname
    rw [shownColor, hlen, hbrules, Text.truncate_of_le hname]
  have htruly : ∀ name, b.ListsTruly name := by
    intro name color hmem
    rw [hbrules, hliterals] at hmem
    simp only [List.mem_cons, List.not_mem_nil, or_false, Prod.mk.injEq] at hmem
    rcases hmem with ⟨rfl, rfl⟩ | ⟨rfl, rfl⟩
    · rw [hshort "sand" (by decide), hsand]
    · rw [hshort "water" (by decide), hwater]
  have hknown : b.Knows "sand" ⟨200, 180, 90⟩ := by
    have hmem : ("sand", (⟨200, 180, 90⟩ : Color)) ∈ b.registry.rules.literals := by
      rw [hbrules, hliterals]
      exact List.mem_cons_self
    have hk := Knows.rule hmem (hlen ▸ by decide)
    rwa [hbrules, hsand] at hk
  let image : Image := ⟨1, 1, fun _ _ => ⟨210, 170, 100⟩⟩
  have hunder : b.cellsUnder image = [⟨0, 0⟩] := by
    rw [cellsUnder, Grid.points, hgrid]
    rfl
  obtain ⟨c, hpaint, hinside, houtside, -⟩ := paint_nearest hb (hbrules ▸ hdeclared) image
  rw [hunder] at hpaint hinside houtside
  obtain ⟨name, hname⟩ := hinside ⟨0, 0⟩ (List.mem_singleton.mpr rfl)
  exact ⟨b, c, image, b.shownColor name, hb, hpaint, hname.color,
    hname.nearest (htruly name) hknown (htruly "sand"), (houtside ⟨1, 0⟩ (by decide)).1⟩

end Board

end ParticleAutomaton
