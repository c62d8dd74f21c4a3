import ParticleAutomaton.Proofs.AngledBonds
import ParticleAutomaton.Proofs.TotalEnergy

namespace ParticleAutomaton

namespace Registry

/-- A registry of two particles, the first one held by a cell. -/
def pair (rules : Rulebook ℝ) : Registry ℝ :=
  (((new rules 8).intern "_").2.intern "a").2.addCount ⟨0, 0⟩

theorem sound_pair (rules : Rulebook ℝ) : (pair rules).Sound ∧ (pair rules).rules = rules ∧
    (pair rules).name? ⟨0, 0⟩ = some "_" ∧ (pair rules).name? ⟨1, 1⟩ = some "a" ∧
    0 < (pair rules).held ⟨0, 0⟩ := by
  have hblank : Text.truncate 8 "_" = "_" := by decide
  have hname : Text.truncate 8 "a" = "a" := by decide
  have hfirst : (new rules 8).intern "_" = (new rules 8).enroll "_" := by
    rw [intern_eq]
    simp [new, hblank]
  have hnone : ((new rules 8).enroll "_").2.index["a"]? = none := by
    simp [enroll, new]
  have hmax : ((new rules 8).enroll "_").2.maxNameLen = 8 := rfl
  have hsecond : ((new rules 8).enroll "_").2.intern "a" =
      ((new rules 8).enroll "_").2.enroll "a" := by
    rw [intern_eq, hmax, hname, hnone]
  obtain ⟨hs, -, hn⟩ := (sound_new rules 8).intern "_"
  obtain ⟨hs', hext, hn'⟩ := hs.intern "a"
  rw [hfirst] at hn hs' hext hn'
  rw [hsecond] at hs' hext hn'
  have hn : ((new rules 8).enroll "_").2.name? ⟨0, 0⟩ = some (Text.truncate 8 "_") := hn
  have hn' : (((new rules 8).enroll "_").2.enroll "a").2.name? ⟨1, 1⟩ =
      some (Text.truncate 8 "a") := hn'
  have hkept : (((new rules 8).enroll "_").2.enroll "a").2.name? ⟨0, 0⟩ =
      ((new rules 8).enroll "_").2.name? ⟨0, 0⟩ := hext.toKeeps.name? (show 0 < 1 by decide)
  have hcounted := keeps_addCount (((new rules 8).enroll "_").2.enroll "a").2 ⟨0, 0⟩
  unfold pair
  rw [hfirst, hsecond]
  refine ⟨hs'.recount _ (· + 1), rfl, ?_, ?_, ?_⟩
  · rw [hcounted.name? (show 0 < 2 by decide), hkept, hn, hblank]
  · rw [hcounted.name? (show 1 < 2 by decide), hn', hname]
  · rw [held_addCount (hkept.trans hn)]
    exact Nat.lt_add_left _ Nat.zero_lt_one

end Registry

namespace UpdateEvent

section

variable {R : Type}

/-- The grid before or after a change. -/
def gridAt (e : UpdateEvent R) (g : Grid) (after : Bool) : Grid := if after then e.applied g else g

theorem contains_gridAt (e : UpdateEvent R) (g : Grid) (after : Bool) (p : Point) :
    (e.gridAt g after).contains p = g.contains p := by
  cases after
  · rfl
  · exact e.contains_applied g p

theorem field_gridAt {e : UpdateEvent R} {g : Grid} (h : e.plan.WellFormed g) (after : Bool) :
    (e.gridAt g after).field = e.bondsAt g after := by
  cases after
  · rfl
  · exact field_applied h

theorem particle_putEnds {e : UpdateEvent R} {g : Grid} {p : Point} {c : Cell}
    (hc : (e.putEnds g).get? p = some c) : e.particleAt g true p = some c.particle := by
  unfold putEnds at hc
  rw [Grid.get?_put] at hc
  unfold particleAt
  split at hc
  next hp =>
    obtain ⟨d, -, rfl⟩ := Option.map_eq_some_iff.mp hc
    rw [if_pos hp]
    rfl
  next hp =>
    rw [if_neg hp]
    split at hc
    next hr => rw [if_neg (by simp [hr]), hc, Option.map_some]
    next hr =>
      rw [Grid.get?_put] at hc
      split at hc
      next hs =>
        obtain ⟨d, -, rfl⟩ := Option.map_eq_some_iff.mp hc
        rw [if_pos ⟨hs, by simpa using hr⟩]
        rfl
      next hs => rw [if_neg fun h => hs h.1, hc, Option.map_some]

/-- The particles that a change is weighed with are those of the cells before and after it. -/
theorem particleAt_eq {e : UpdateEvent R} {g : Grid} (m : e.Meets g) {after : Bool} {p : Point}
    {c : Cell} (hc : (e.gridAt g after).get? p = some c) :
    e.particleAt g after p = some c.particle := by
  cases after with
  | false =>
    have hc : g.get? p = some c := hc
    unfold particleAt
    split
    next hp => exact congrArg some (m.target c (hp ▸ hc)).symm
    next =>
      split
      next hs =>
        have hr : e.remote = false := by simpa using hs.2
        exact congrArg some (m.source hr c (hs.1 ▸ hc)).symm
      next => rw [hc, Option.map_some]
  | true =>
    have hc : (e.plan.carryOut (e.putEnds g)).get? p = some c := hc
    have hs := e.plan.sameStates_carryOut (e.putEnds g)
    obtain ⟨d, hd⟩ := Grid.get?_of_contains ((hs.contains p).symm.trans (Grid.contains_of_get? hc))
    obtain ⟨c', hc', hcd, -⟩ := hs.get? hd
    cases hc.symm.trans hc'
    rw [particle_putEnds hd, hcd]

end

section

variable {R : Type} (e : UpdateEvent R) (g : Grid)

/-- A bond has an end that is near. -/
def Touches (b : Bond) : Prop := b.origin ∈ e.near ∨ b.destination ∈ e.near

instance (b : Bond) : Decidable (e.Touches b) := inferInstanceAs (Decidable (_ ∨ _))

/-- A change leaves the particle and the bonds of a place as they are. -/
def Spares (p : Point) : Prop :=
  e.particleAt g true p = e.particleAt g false p ∧ e.bondsAt g true p = e.bondsAt g false p

theorem spares_of_far {p : Point} (hp : p ∉ e.near) : e.Spares g p := by
  obtain ⟨hends, hedits⟩ := not_or.mp (mt List.mem_append.mpr hp)
  have ht : p ≠ e.target := by
    rintro rfl
    unfold ends at hends
    split at hends <;> simp at hends
  have hs : ¬ (p = e.source ∧ (!e.remote) = true) := by
    rintro ⟨rfl, hr⟩
    unfold ends at hends
    rw [if_neg (by simpa using hr)] at hends
    simp at hends
  have hplan : e.plan.get? p = none := by
    refine List.lookup_eq_none_iff.mpr fun entry he => ?_
    simpa using fun hpe : p = entry.1 => hedits (hpe ▸ List.mem_map_of_mem he)
  constructor
  · simp only [particleAt, if_neg ht, if_neg hs]
  · simp [bondsAt, Plan.bondsAt, hplan]

theorem spares_of_still (hs : e.sourceChanges = false) (ht : e.targetChanges = false)
    (hp : e.plan.edits = []) (p : Point) : e.Spares g p := by
  have hs : e.newSource = e.oldSource := by simpa [sourceChanges] using hs
  have ht : e.newTarget = e.oldTarget := by simpa [targetChanges] using ht
  constructor
  · simp only [particleAt, hs, ht, ite_self]
  · simp [bondsAt, Plan.bondsAt, Plan.get?, hp]

end

section

variable {R : Type} [ExactScalar R] {e : UpdateEvent R} {g : Grid} {r s : Registry R}

theorem addEnergy_outside {after : Bool} {b : Bond}
    (h : ¬ (g.contains b.origin = true ∧ g.contains b.destination = true))
    (state : R × Registry R) :
    e.addEnergy g after state b = state := by
  unfold addEnergy
  simp only [if_neg h]
  split <;> rfl

variable (m : e.Meets g) (w : e.plan.WellFormed g)

include m w

/-- A bond adds the energy that it has on the grid before or after the change. -/
theorem addEnergy_eq {after : Bool} (h : r.SameEnergies s) (sum : R) (b : Bond) :
    (e.addEnergy g after (sum, s) b).1 = sum + (e.gridAt g after).energyOf r b ∧
      r.SameEnergies (e.addEnergy g after (sum, s) b).2 := by
  by_cases hin : g.contains b.origin = true ∧ g.contains b.destination = true
  · obtain ⟨c, hc⟩ := Grid.get?_of_contains ((e.contains_gridAt g after b.origin).trans hin.1)
    obtain ⟨d, hd⟩ := Grid.get?_of_contains ((e.contains_gridAt g after b.destination).trans hin.2)
    have hbonds : e.bondsAt g after b.origin = some c.bonds := by
      rw [← congrFun (field_gridAt w after) b.origin, Grid.field, hc, Option.map_some]
    unfold addEnergy Grid.energyOf
    simp only [particleAt_eq m hc, particleAt_eq m hd, hc, hd, hbonds, if_pos hin, Option.bind_some]
    exact ⟨congrArg (sum + ·) (h.bondEnergy ..), h.trans (Registry.sameEnergies_bondEnergy ..)⟩
  · have hout : ¬ ((e.gridAt g after).contains b.origin = true ∧
        (e.gridAt g after).contains b.destination = true) := by
      rw [contains_gridAt, contains_gridAt]
      exact hin
    rw [addEnergy_outside hin, Grid.energyOf_outside hout]
    exact ⟨(add_zero sum).symm, h⟩

theorem localEnergy_eq (after : Bool) (h : r.SameEnergies s) :
    (e.localEnergy g s after).1 =
        ((e.nearBonds g after).map ((e.gridAt g after).energyOf r)).sum ∧
      r.SameEnergies (e.localEnergy g s after).2 := by
  have hadd : ∀ t, r.SameEnergies t → ∀ sum b,
      (e.addEnergy g after (sum, t) b).1 = sum + (e.gridAt g after).energyOf r b ∧
        r.SameEnergies (e.addEnergy g after (sum, t) b).2 := fun _ ht => addEnergy_eq m w ht
  obtain ⟨hsum, hs⟩ := Registry.sum_weighed hadd (e.nearBonds g after) 0 h
  exact ⟨hsum.trans (zero_add _), hs⟩

omit m in
/-- The bonds that are weighed are those with both ends on the grid and one of them near. -/
theorem nearBonds_sum (after : Bool) (hm : (e.gridAt g after).field.Mirrored) (r : Registry R) :
    ((e.nearBonds g after).map ((e.gridAt g after).energyOf r)).sum =
      ∑ b ∈ (e.gridAt g after).innerBonds.toFinset with e.Touches b,
        (e.gridAt g after).energyOf r b := by
  rw [← List.sum_toFinset _ (e.nodup_nearBonds g after)]
  symm
  refine Finset.sum_subset (fun b hb => ?_) fun b hb hnot => Grid.energyOf_outside (fun hin => ?_) r
  · obtain ⟨hb, ht⟩ := Finset.mem_filter.mp hb
    obtain ⟨hl, hd⟩ := Grid.mem_innerBonds.mp (List.mem_toFinset.mp hb)
    have he := (hm b hl.holds (Grid.holds_field.mpr hd)).mp hl
    rw [field_gridAt w] at hl he
    exact List.mem_toFinset.mpr (mem_nearBonds.mpr (ht.imp (⟨·, hl⟩) (⟨·, he⟩)))
  · have hboth := hm b (Grid.holds_field.mpr hin.1) (Grid.holds_field.mpr hin.2)
    have hnear := mem_nearBonds.mp (List.mem_toFinset.mp hb)
    rw [← field_gridAt w] at hnear
    refine hnot (Finset.mem_filter.mpr ⟨List.mem_toFinset.mpr (Grid.mem_innerBonds.mpr ⟨?_, hin.2⟩),
      hnear.imp And.left And.left⟩)
    rcases hnear with ⟨-, hl⟩ | ⟨-, he⟩
    · exact hl
    · exact hboth.mpr he

/-- A change does nothing to a bond between places that it spares. -/
theorem energyOf_spared {b : Bond} (ho : e.Spares g b.origin) (hd : e.Spares g b.destination) :
    (b ∈ (e.applied g).innerBonds ↔ b ∈ g.innerBonds) ∧
      (e.applied g).energyOf r b = g.energyOf r b := by
  have hfield : (e.applied g).field b.origin = g.field b.origin := by
    rw [field_applied w]
    exact ho.2
  have hleaves : (e.applied g).field.Leaves b ↔ g.field.Leaves b := by
    unfold BondField.Leaves
    rw [hfield]
  refine ⟨by rw [Grid.mem_innerBonds, Grid.mem_innerBonds, hleaves, contains_applied], ?_⟩
  have hparticle : ∀ {p : Point} {c c' : Cell}, e.Spares g p → g.get? p = some c →
      (e.applied g).get? p = some c' → c'.particle = c.particle := by
    intro p c c' hp hc hc'
    have hold : e.particleAt g false p = some c.particle := particleAt_eq m hc
    have hnew : e.particleAt g true p = some c'.particle := particleAt_eq m hc'
    exact Option.some.inj (hnew.symm.trans (hp.1.trans hold))
  by_cases hin : g.contains b.origin = true ∧ g.contains b.destination = true
  · obtain ⟨c, hc⟩ := Grid.get?_of_contains hin.1
    obtain ⟨d, hd'⟩ := Grid.get?_of_contains hin.2
    obtain ⟨c', hc'⟩ := Grid.get?_of_contains ((e.contains_applied g b.origin).trans hin.1)
    obtain ⟨d', hd''⟩ := Grid.get?_of_contains ((e.contains_applied g b.destination).trans hin.2)
    have hbonds : c'.bonds = c.bonds := by
      simpa [Grid.field, hc, hc'] using hfield
    unfold Grid.energyOf
    simp only [hc, hc', hd', hd'', hbonds, hparticle ho hc hc', hparticle hd hd' hd'']
  · have hout : ¬ ((e.applied g).contains b.origin = true ∧
        (e.applied g).contains b.destination = true) := by
      rw [contains_applied, contains_applied]
      exact hin
    rw [Grid.energyOf_outside hin, Grid.energyOf_outside hout]

/-- Bonds between places that a change spares have the same energy before and after it. -/
theorem sum_spared {P : Bond → Prop} [DecidablePred P]
    (h : ∀ b, P b → e.Spares g b.origin ∧ e.Spares g b.destination) (r : Registry R) :
    ∑ b ∈ (e.applied g).innerBonds.toFinset with P b, (e.applied g).energyOf r b =
      ∑ b ∈ g.innerBonds.toFinset with P b, g.energyOf r b := by
  refine Finset.sum_congr (Finset.ext fun b => ?_) fun b hb => ?_
  · rw [Finset.mem_filter, Finset.mem_filter, List.mem_toFinset, List.mem_toFinset]
    exact and_congr_left fun hb => (energyOf_spared m w (r := r) (h b hb).1 (h b hb).2).1
  · obtain ⟨-, hb⟩ := Finset.mem_filter.mp hb
    exact (energyOf_spared m w (h b hb).1 (h b hb).2).2

/-- The energy that a change gains is that of the near bonds, as all others are spared. -/
theorem near_sum_sub (hm : g.field.Mirrored) (hm' : (e.plan.field g).Mirrored) (r : Registry R) :
    ((e.nearBonds g true).map ((e.applied g).energyOf r)).sum -
        ((e.nearBonds g false).map (g.energyOf r)).sum =
      (e.applied g).totalEnergy r - g.totalEnergy r := by
  have hafter : (e.applied g).field.Mirrored := field_applied w ▸ hm'
  have hnew := nearBonds_sum w true hafter r
  have hold := nearBonds_sum w false hm r
  have hfar := sum_spared m w (P := fun b => ¬ e.Touches b) (fun b hb => by
    obtain ⟨ho, hd⟩ := not_or.mp hb
    exact ⟨e.spares_of_far g ho, e.spares_of_far g hd⟩) r
  have htotal : ∀ k : Grid, k.totalEnergy r =
      ∑ b ∈ k.innerBonds.toFinset with e.Touches b, k.energyOf r b +
        ∑ b ∈ k.innerBonds.toFinset with ¬ e.Touches b, k.energyOf r b := fun k => by
    rw [Grid.totalEnergy_eq, Finset.sum_filter_add_sum_filter_not]
  rw [htotal, htotal, hfar, add_sub_add_right_eq_sub]
  exact congrArg₂ (· - ·) hnew hold

theorem energyDelta_eq (hm : g.field.Mirrored) (hm' : (e.plan.field g).Mirrored) (r : Registry R)
    (barrier : R) :
    (e.energyDelta g r barrier).1 =
        (if e.sourceChanges then barrier else 0) + (e.applied g).totalEnergy r - g.totalEnergy r ∧
      r.SameEnergies (e.energyDelta g r barrier).2 := by
  unfold energyDelta
  split
  next hstill =>
    simp only [Bool.and_eq_true, Bool.not_eq_true', List.isEmpty_iff] at hstill
    obtain ⟨⟨hs, ht⟩, hp⟩ := hstill
    have hsame := sum_spared m w (P := fun _ => True)
      (fun b _ => ⟨e.spares_of_still g hs ht hp _, e.spares_of_still g hs ht hp _⟩) r
    rw [Finset.filter_true, Finset.filter_true, ← Grid.totalEnergy_eq,
      ← Grid.totalEnergy_eq] at hsame
    refine ⟨?_, .refl r⟩
    rw [hs, hsame]
    simp
  next =>
    obtain ⟨hold, ho⟩ := localEnergy_eq m w false (.refl r)
    obtain ⟨hnew, hn⟩ := localEnergy_eq m w true ho
    refine ⟨?_, hn⟩
    rw [add_sub_assoc, ← near_sum_sub m w hm hm', ← add_sub_assoc]
    exact congrArg₂ (fun new old => (if e.sourceChanges then barrier else 0) + new - old) hnew hold

end

section

variable {R : Type} {e : UpdateEvent R}

theorem sameEnergies_of_write {s t : List Point × Grid × Registry R} {p : Point}
    {old new : ParticleId} (h : write s p old new = .ok t) : s.2.2.SameEnergies t.2.2 := by
  obtain ⟨touched, x⟩ := s
  rw [write_eq] at h
  split at h
  next =>
    obtain ⟨r, hr, rfl⟩ := map_eq_ok.mp h
    exact Registry.sameEnergies_of_exchange hr
  next =>
    cases h
    exact .refl _

/-- Writing a change leaves what is told of energies as it is. -/
theorem sameEnergies_of_commit {g g' : Grid} {r t : Registry R} {touched : List Point}
    (h : e.commit g r = .ok (touched, g', t)) : r.SameEnergies t := by
  rw [commit_eq] at h
  obtain ⟨s, hs, h⟩ := ParticleAutomaton.bind_eq_ok.mp h
  obtain ⟨s', hs', h⟩ := ParticleAutomaton.bind_eq_ok.mp h
  cases h
  refine Registry.SameEnergies.trans ?_ (sameEnergies_of_write hs')
  unfold writeSource at hs
  split at hs
  next =>
    cases hs
    exact .refl r
  next => exact sameEnergies_of_write hs

variable [Scalar R]

theorem totalEnergy_congr {r t : Registry R} (h : r.SameEnergies t) (g : Grid) :
    g.totalEnergy t = g.totalEnergy r := by
  rw [Grid.totalEnergy, Grid.totalEnergy, Grid.energyOf_congr h]

end

theorem energyDelta_of_bind {R : Type} [ExactScalar R] {e e' : UpdateEvent R} {g : Grid}
    (hg : g.gap? = none) (hp : e.plan = .empty) (hm : e.Meets g) (hb : e.bind g = .ok (true, e'))
    (r : Registry R) (barrier : R) :
    (e'.energyDelta g r barrier).1 =
        (if e'.sourceChanges then barrier else 0) + (e'.applied g).totalEnergy r -
          g.totalEnergy r ∧
      r.SameEnergies (e'.energyDelta g r barrier).2 := by
  have hmirrored := Grid.gap?_eq_none_iff.mp hg
  have hm' := hm.bind hb
  obtain ⟨labels, plan, rfl, hplan⟩ := bind_eq_ok hb
  have hplanned : Planned g plan := by
    rcases hplan with rfl | hplan
    · exact hp ▸ planned_empty g
    · exact hplan
  exact energyDelta_eq hm' hplanned.wellFormed hmirrored (hplanned.mirrored hmirrored) r barrier

/-- The energy that a change is told to gain, from the bonds near it alone, is what the whole grid
gains by it, and the barrier where the source changes. All changes are made with an empty plan. -/
theorem energyDelta_exact {R : Type} [ExactScalar R] {e e' : UpdateEvent R} {g g' : Grid}
    (hg : g.gap? = none) (hp : e.plan = .empty) (hm : e.Meets g)
    (hb : e.bind g = .ok (true, e')) {r t : Registry R} {barrier : R} {touched : List Point}
    (hc : e'.commit g (e'.energyDelta g r barrier).2 = .ok (touched, g', t)) :
    (e'.energyDelta g r barrier).1 =
      (if e'.newSource ≠ e'.oldSource then barrier else 0) + g'.totalEnergy t -
        g.totalEnergy r := by
  obtain ⟨hdelta, hsame⟩ := energyDelta_of_bind hg hp hm hb r barrier
  rw [hdelta, commit_eq_ok hc, totalEnergy_congr (hsame.trans (sameEnergies_of_commit hc))]
  simp [sourceChanges]

/-- Cells hold a particle as before while a change is weighed. -/
theorem held_energyDelta {R : Type} [Scalar R] (e : UpdateEvent R) (g : Grid) {r : Registry R}
    (h : r.Sound) (barrier : R) {id : ParticleId} {name : String} (hn : r.name? id = some name) :
    (e.energyDelta g r barrier).2.held id = r.held id := by
  obtain ⟨p, hp, -⟩ := Registry.get?_of_name? hn
  obtain ⟨q, hq, hlearns⟩ := (e.grows_energyDelta g r barrier h.indexed.arena).old hp
  rw [Registry.held, Registry.held, hp, hq, Option.map_some, Option.map_some, hlearns.count]

/-- The rule that links two neighbors and turns the first one into another particle. -/
def linking : UpdateEvent ℝ :=
  let blank : Template := ⟨"", []⟩
  let rule : TransformRule ℝ := ⟨none, none, blank, blank, blank, blank, 1, blank, [], [], [],
    [⟨"s", "t", "k"⟩]⟩
  .new ⟨0, 0⟩ ⟨1, 0⟩ 1 ⟨0, 0⟩ ⟨0, 0⟩ ⟨⟨1, 1⟩, ⟨0, 0⟩, "", some rule⟩

theorem write_ok {R : Type} {touched : List Point} {x : Grid × Registry R} {p : Point}
    {old new : ParticleId} (h : old = new ∨ 0 < x.2.held old) :
    ∃ s, write (touched, x) p old new = .ok s := by
  rw [write_eq]
  split
  next =>
    unfold Registry.exchange
    split
    next hne =>
      rw [Registry.dropCount_eq (h.resolve_left hne)]
      exact ⟨_, rfl⟩
    next => exact ⟨_, rfl⟩
  next => exact ⟨_, rfl⟩

/-- A change is carried out where the target stays and a cell holds the source. -/
theorem commits {R : Type} {e : UpdateEvent R} {r : Registry R} (g : Grid)
    (hs : 0 < r.held e.oldSource) (ht : e.oldTarget = e.newTarget) :
    ∃ s, e.commit g r = .ok s := by
  obtain ⟨⟨touched, x⟩, hsource⟩ : ∃ s, e.writeSource ([], g, r) = .ok s := by
    unfold writeSource
    split
    next => exact ⟨_, rfl⟩
    next => exact write_ok (Or.inr hs)
  obtain ⟨s, htarget⟩ : ∃ s, write (touched, x) e.target e.oldTarget e.newTarget = .ok s :=
    write_ok (Or.inl ht)
  rw [commit_eq, hsource, ok_bind, htarget]
  exact ⟨_, rfl⟩

/-- A new bond leads to one around a corner, which gains energy by that. -/
theorem energyDelta_exact_of_link :
    ∃ (e e' : UpdateEvent ℝ) (g g' : Grid) (r t : Registry ℝ) (touched : List Point),
      e.bind g = .ok (true, e') ∧
        e'.commit g (e'.energyDelta g r 3).2 = .ok (touched, g', t) ∧
        r.name e'.oldSource = "_" ∧ r.name e'.newSource = "a" ∧
        g.outgoing? ⟨0, 0⟩ "k" = none ∧ g'.outgoing? ⟨0, 0⟩ "k" = some ⟨1, 0⟩ ∧
        g.totalEnergy r = 0 ∧ g'.totalEnergy t = 1 ∧ (e'.energyDelta g r 3).1 = 3 + 1 - 0 := by
  obtain ⟨rule, hbond, hmatch, henergy, hgeometry⟩ := EnergyRule.exists_angled
  let rules : Rulebook ℝ := ⟨.square4, [], [], [], [rule]⟩
  obtain ⟨hs, hrules, hblank, hname, hheld⟩ := Registry.sound_pair rules
  generalize Registry.pair rules = r at hs hrules hblank hname hheld
  have hangled : ∀ other ∈ r.rules.energies, other.geometry.constrainsAngle = true := by
    rw [hrules]
    intro other hother
    rw [List.mem_singleton.mp hother, hgeometry]
    rfl
  let g : Grid := (Grid.new 2 2 ⟨0, 0⟩).link Grid.corner
  have hg : g.gap? = none := by decide +kernel
  have hcells : (g.get? ⟨0, 0⟩).any (·.particle == ⟨0, 0⟩) = true ∧
      (g.get? ⟨1, 0⟩).any (·.particle == ⟨0, 0⟩) = true := by
    constructor <;> decide +kernel
  have hm : linking.Meets g := by
    obtain ⟨c, hc, hcp⟩ := (Option.any_eq_true ..).mp hcells.1
    obtain ⟨d, hd, hdp⟩ := (Option.any_eq_true ..).mp hcells.2
    have hmeets := meets_new (by decide : (⟨0, 0⟩ : Point) ≠ ⟨1, 0⟩) hc hd 1 linking.outcome
    rw [beq_iff_eq.mp hcp, beq_iff_eq.mp hdp] at hmeets
    exact hmeets
  obtain ⟨e', hb⟩ : ∃ e', linking.bind g = .ok (true, e') := ⟨_, rfl⟩
  have hends : e'.oldSource = ⟨0, 0⟩ ∧ e'.newSource = ⟨1, 1⟩ ∧ e'.oldTarget = e'.newTarget := by
    cases hb
    exact ⟨rfl, rfl, rfl⟩
  obtain ⟨hold, hnew, hstill⟩ := hends
  have hheld' : 0 < (e'.energyDelta g r 3).2.held e'.oldSource := by
    rw [hold, held_energyDelta e' g hs 3 hblank]
    exact hheld
  obtain ⟨⟨touched, g', t⟩, hc⟩ := commits g hheld' hstill
  have hgrid : g'.innerBonds = [⟨⟨0, 0⟩, ⟨1, 0⟩, "k"⟩, Grid.corner] ∧ g'.TurnsCorner ⟨0, 0⟩ ∧
      g'.incoming? ⟨0, 0⟩ "k" = none ∧ g'.outgoing? ⟨0, 0⟩ "k" = some ⟨1, 0⟩ := by
    rw [commit_eq_ok hc]
    cases hb
    refine ⟨?_, ⟨?_, ?_⟩, ?_, ?_⟩ <;> decide +kernel
  obtain ⟨hinner, hturns, halone, hlinked⟩ := hgrid
  have hbefore : g.totalEnergy r = 0 := by
    have hinner : g.innerBonds = [Grid.corner] := by decide +kernel
    have hlone : g.energyOf r Grid.corner = 0 := Grid.energyOf_alone hs hangled (by decide +kernel)
    rw [Grid.totalEnergy, hinner, List.map_singleton, List.sum_singleton, hlone]
  have hafter : g'.totalEnergy r = 1 := by
    have hfirst : g'.energyOf r ⟨⟨0, 0⟩, ⟨1, 0⟩, "k"⟩ = 0 := Grid.energyOf_alone hs hangled halone
    have hcorner : g'.energyOf r Grid.corner = 1 :=
      (Grid.energyOf_corner hturns hs hblank (hrules ▸ rfl) hbond hmatch hgeometry).trans henergy
    rw [Grid.totalEnergy, hinner]
    simp [hfirst, hcorner]
  have hsame := (energyDelta_of_bind hg rfl hm hb r 3).2.trans (sameEnergies_of_commit hc)
  have hafter : g'.totalEnergy t = 1 := (totalEnergy_congr hsame g').trans hafter
  have hdelta := energyDelta_exact hg rfl hm hb hc
  have hne : e'.newSource ≠ e'.oldSource := by
    rw [hold, hnew]
    decide
  rw [if_pos hne, hafter, hbefore] at hdelta
  refine ⟨linking, e', g, g', r, t, touched, hb, hc, ?_, ?_, by decide +kernel, hlinked, hbefore,
    hafter, hdelta⟩
  · rw [hold]
    exact Registry.name_of hblank
  · rw [hnew]
    exact Registry.name_of hname

end UpdateEvent

end ParticleAutomaton
