import ParticleAutomaton.Proofs.MirroredBonds

namespace ParticleAutomaton

namespace Grid

variable {g : Grid} {b c : Bond}

/-- A bond makes way for another one of its name: both leave one cell of the grid, or both enter
one. -/
def MakesWay (g : Grid) (b c : Bond) : Prop :=
  c.name = b.name ∧
    (c.origin = b.origin ∧ g.contains b.origin = true ∨
      c.destination = b.destination ∧ g.contains b.destination = true)

theorem field_link (g : Grid) (b : Bond) :
    (g.link b).field =
      let near := g.field.dropAny (g.field.leaving? b.origin b.name)
      (near.dropAny (near.entering? b.destination b.name)).write b := by
  simp only [link, field_writeBond, field_removeAny]

/-- The bond that leaves the origin makes way first, so that it is no longer found where it
enters. -/
theorem entering?_near :
    (g.field.dropAny (g.field.leaving? b.origin b.name)).entering? b.destination b.name = some c ↔
      (g.field.Enters c ∧ c.destination = b.destination ∧ c.name = b.name) ∧
        ¬ (g.field.Leaves c ∧ c.origin = b.origin) := by
  rw [BondField.entering?_eq_some_iff, BondField.enters_dropAny, ne_eq,
    BondField.leaving?_eq_some_iff]
  constructor
  · rintro ⟨⟨he, hl⟩, hd, hn⟩
    exact ⟨⟨he, hd, hn⟩, fun h => hl ⟨h.1, h.2, hn⟩⟩
  · rintro ⟨⟨he, hd, hn⟩, hl⟩
    exact ⟨⟨he, fun h => hl ⟨h.1, h.2.1⟩⟩, hd, hn⟩

theorem holds_linked (g : Grid) (b : Bond) {p : Point} :
    (g.link b).field.Holds p ↔ g.contains p = true := by
  rw [holds_field, (sameStates_link g b).contains]

/-- What leaves a place once a bond is recorded: the bond, and what did not make way for it. -/
theorem leaves_link_iff (h : g.field.Mirrored) :
    (g.link b).field.Leaves c ↔
      g.contains b.origin = true ∧ c = b ∨ g.field.Leaves c ∧ ¬ g.MakesWay b c := by
  have hholds := holds_linked g b (p := b.origin)
  rw [field_link, BondField.holds_write] at hholds
  have hstands : g.field.Leaves c → g.contains c.origin = true ∧
      (g.contains c.destination = true ↔ g.field.Enters c) := fun hl =>
    ⟨holds_field.mp hl.holds, fun hd => (h c hl.holds (holds_field.mpr hd)).mp hl,
      fun he => holds_field.mp he.holds⟩
  rw [field_link]
  simp only [BondField.leaves_write, BondField.leaves_dropAny, ne_eq, entering?_near,
    BondField.leaving?_eq_some_iff, hholds, MakesWay]
  grind

theorem enters_link_iff (h : g.field.Mirrored) :
    (g.link b).field.Enters c ↔
      g.contains b.destination = true ∧ c = b ∨ g.field.Enters c ∧ ¬ g.MakesWay b c := by
  have hholds := holds_linked g b (p := b.destination)
  rw [field_link, BondField.holds_write] at hholds
  have hstands : g.field.Enters c → g.contains c.destination = true ∧
      (g.contains c.origin = true ↔ g.field.Leaves c) := fun he =>
    ⟨holds_field.mp he.holds, fun ho => (h c (holds_field.mpr ho) he.holds).mpr he,
      fun hl => holds_field.mp hl.holds⟩
  rw [field_link]
  simp only [BondField.enters_write, BondField.enters_dropAny, ne_eq, entering?_near,
    BondField.leaving?_eq_some_iff, hholds, MakesWay]
  grind

/-- A grid with a bond recorded in it: the bond stands at its ends on the grid, alone of its name in
leaving such an origin or in entering such a destination, and all else is as before. -/
structure Relinked (g h : Grid) (b : Bond) : Prop where
  states : g.SameStates h
  origin : g.contains b.origin = true → h.field.Leaves b
  destination : g.contains b.destination = true → h.field.Enters b
  alone : ∀ c, g.MakesWay b c → h.field.Leaves c ∨ h.field.Enters c → c = b
  others : ∀ c, c ≠ b → ¬ g.MakesWay b c →
    (h.field.Leaves c ↔ g.field.Leaves c) ∧ (h.field.Enters c ↔ g.field.Enters c)
  mirrored : h.field.Mirrored

theorem relinked_link (h : g.field.Mirrored) (b : Bond) : g.Relinked (g.link b) b where
  states := sameStates_link g b
  origin ho := (leaves_link_iff h).mpr (Or.inl ⟨ho, rfl⟩)
  destination hd := (enters_link_iff h).mpr (Or.inl ⟨hd, rfl⟩)
  alone c hway hstands := by
    rw [leaves_link_iff h, enters_link_iff h] at hstands
    rcases hstands with (⟨-, hc⟩ | ⟨-, hstays⟩) | (⟨-, hc⟩ | ⟨-, hstays⟩)
    · exact hc
    · exact absurd hway hstays
    · exact hc
    · exact absurd hway hstays
  others c hne hstays := by
    rw [leaves_link_iff h, enters_link_iff h]
    simp only [hne, hstays, and_false, false_or, not_false_eq_true, and_true, iff_self]
  mirrored := (leadsTo_link g b).mirrored h

end Grid

namespace Board

variable {R γ : Type} [Scalar R] [Generator R γ] [MessageReader R]

/-- A bond between two places, one of them on the grid, is recorded at its ends on the grid. The
bonds of its name that leave the same cell or enter the same one make way for it; those that share
an end off the grid with it stay, as do all others. No other bond is recorded. -/
theorem addBond_displaces {b : Board R γ} (h : b.Reachable) (bond : Bond) :
    (bond.origin ≠ bond.destination →
      b.grid.contains bond.origin = true ∨ b.grid.contains bond.destination = true →
        ∃ g, b.addBond bond = (true, { b with grid := g }) ∧ b.grid.Relinked g bond) ∧
      ∀ b', b.addBond bond = (false, b') → b' = b := by
  rw [addBond_eq]
  constructor
  · intro hne hin
    refine ⟨b.grid.link bond, if_neg ?_, Grid.relinked_link (mirrored_of_reachable h) bond⟩
    rintro (heq | hout)
    · exact hne heq
    · rcases hin with hin | hin <;> simp [hin] at hout
  · intro b' hb'
    split at hb'
    next => exact (Prod.mk.inj hb').2.symm
    next => exact nomatch hb'

/-- Two bonds of one name that leave one place off the grid both stand. -/
theorem addBond_displaces_of_outer :
    ∃ b : Board Float RandomSource, b.Reachable ∧ ∃ g,
      b.addBond ⟨⟨-1, 0⟩, ⟨1, 0⟩, "k"⟩ = (true, { b with grid := g }) ∧
        b.grid.Relinked g ⟨⟨-1, 0⟩, ⟨1, 0⟩, "k"⟩ ∧
        g.incoming? ⟨1, 0⟩ "k" = some ⟨-2, 0⟩ ∧ g.incoming? ⟨0, 0⟩ "k" = some ⟨-1, 0⟩ := by
  let first : Bond := ⟨⟨-1, 0⟩, ⟨0, 0⟩, "k"⟩
  let second : Bond := ⟨⟨-1, 0⟩, ⟨1, 0⟩, "k"⟩
  obtain ⟨a, ha⟩ := pair_ok
  obtain ⟨filler, hg⟩ := grid_new ha
  have hin (p : Point) : a.grid.contains p = true ↔ p = ⟨0, 0⟩ ∨ p = ⟨1, 0⟩ := by
    rw [Grid.contains_iff, hg, Point.eq_iff, Point.eq_iff]
    simp only [Grid.new]
    omega
  have hr : a.Reachable := ⟨_, _, _, a, ha, .refl⟩
  obtain ⟨g, hb, hfirst⟩ := (addBond_displaces hr first).1 (by decide) (by simp [hin, first])
  have hr' : ({ a with grid := g } : Board Float RandomSource).Reachable := by
    have hrun : (a.addBond first).2.Reachable := ⟨_, _, _, a, ha, .single ⟨.addBond first, _, rfl⟩⟩
    rwa [hb] at hrun
  have hin' (p : Point) : g.contains p = true ↔ p = ⟨0, 0⟩ ∨ p = ⟨1, 0⟩ := by
    rw [hfirst.states.contains, hin]
  obtain ⟨g', hb', hsecond⟩ := (addBond_displaces hr' second).1 (by decide) (by simp [hin', second])
  have hstays : ¬ g.MakesWay second first := by
    rintro ⟨-, ⟨-, ho⟩ | ⟨hd, -⟩⟩
    · rw [hin'] at ho
      exact absurd ho (by decide)
    · exact absurd hd (by decide)
  have hentered := hfirst.destination (by simp [hin, first])
  have hkept := (hsecond.others first (by decide) hstays).2.mpr hentered
  refine ⟨_, hr', g', hb', hsecond, ?_, Grid.enters_field.mp hkept⟩
  exact Grid.enters_field.mp (hsecond.destination (by simp [hin', second]))

end Board

end ParticleAutomaton
