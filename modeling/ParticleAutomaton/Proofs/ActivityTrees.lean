import ParticleAutomaton.Proofs.Results
import ParticleAutomaton.Sampling.ActivityTree

namespace ParticleAutomaton

namespace QuadTree

variable {R γ : Type} {k : Nat}

theorem pow_succ_two (k : Nat) : Nat.pow 2 (k + 1) = Nat.pow 2 k + Nat.pow 2 k := by
  have h : Nat.pow 2 (k + 1) = Nat.pow 2 k * 2 := Nat.pow_succ 2 k
  omega

/-- A rate that is set at one place is found there and nowhere else. -/
theorem rate_put {r : R} {raise : R → R} {t : QuadTree R k} {x y u v : Nat}
    (hx : x < Nat.pow 2 k) (hy : y < Nat.pow 2 k) (hu : u < Nat.pow 2 k) (hv : v < Nat.pow 2 k) :
    (put r raise t x y).rate u v = if u = x ∧ v = y then r else t.rate u v := by
  induction t generalizing x y u v with
  | leaf old =>
    have hone : Nat.pow 2 0 = 1 := rfl
    rw [if_pos (by omega)]
    rfl
  | @node k sum nw ne sw se ihnw ihne ihsw ihse =>
    have hp := pow_succ_two k
    -- The quadrant of the place decides which of the four hypotheses is used.
    have hnw := @ihnw x y u v
    have hne := @ihne (x - Nat.pow 2 k) y (u - Nat.pow 2 k) v
    have hsw := @ihsw x (y - Nat.pow 2 k) u (v - Nat.pow 2 k)
    have hse := @ihse (x - Nat.pow 2 k) (y - Nat.pow 2 k) (u - Nat.pow 2 k) (v - Nat.pow 2 k)
    clear ihnw ihne ihsw ihse
    simp only [put]
    split
    · split
      · simp only [rate]
        grind
      · simp only [rate]
        grind
    · split
      · simp only [rate]
        grind
      · simp only [rate]
        grind

variable [Scalar R]

theorem rate_blank (k x y : Nat) : (blank k : QuadTree R k).rate x y = 0 := by
  induction k generalizing x y with
  | zero => rfl
  | succ k ih =>
    unfold blank rate
    simp only [ih, ite_self]

/-- Only weights that are not below or at zero are chosen. -/
theorem choose_eq_some {draw : R} {place : Nat} {last : Option Nat} {ws : List R} {i : Nat}
    (h : choose draw place last ws = some i) :
    last = some i ∨ ∃ j w, ws[j]? = some w ∧ i = place + j ∧ ¬ w ≤ 0 := by
  induction ws generalizing draw place last with
  | nil => exact Or.inl h
  | cons w ws ih =>
    have hrest : ∀ {draw last}, choose draw (place + 1) last ws = some i →
        last = some i ∨ ∃ j v, (w :: ws)[j]? = some v ∧ i = place + j ∧ ¬ v ≤ 0 := by
      intro draw last hc
      rcases ih hc with hl | ⟨j, v, hv, hi, hpos⟩
      · exact Or.inl hl
      · exact Or.inr ⟨j + 1, v, hv, by omega, hpos⟩
    unfold choose at h
    split at h
    next => exact hrest h
    next hpos =>
      have hfirst : i = place → ∃ j v, (w :: ws)[j]? = some v ∧ i = place + j ∧ ¬ v ≤ 0 :=
        fun hi => ⟨0, w, rfl, hi, hpos⟩
      split at h
      next => exact Or.inr (hfirst (Option.some.inj h).symm)
      next =>
        rcases hrest h with hl | hj
        · exact Or.inr (hfirst (Option.some.inj hl).symm)
        · exact Or.inr hj

theorem exists_of_choose {draw : R} {ws : List R} {i : Nat} (h : choose draw 0 none ws = some i) :
    ∃ w, ws[i]? = some w ∧ ¬ w ≤ 0 := by
  rcases choose_eq_some h with hl | ⟨j, w, hw, hi, hpos⟩
  · cases hl
  · exact ⟨w, by rw [hi, Nat.zero_add]; exact hw, hpos⟩

variable [Generator R γ]

/-- What is drawn from a quadrant is shifted to its place in the square. -/
theorem sample_of_shifted {q : QuadTree R k} {g g' : γ} {dx dy x y : Nat}
    (h : ((q.sample g).1.map fun z => (z.1 + dx, z.2 + dy), (q.sample g).2) = (some (x, y), g')) :
    ∃ u v, q.sample g = (some (u, v), g') ∧ x = u + dx ∧ y = v + dy := by
  obtain ⟨⟨u, v⟩, huv, he⟩ := Option.map_eq_some_iff.mp (congrArg Prod.fst h)
  obtain ⟨rfl, rfl⟩ := Prod.mk.inj he
  exact ⟨u, v, Prod.ext huv (Prod.mk.inj h).2, rfl, rfl⟩

/-- A place that is drawn lies in the square, and its rate is not below or at zero. -/
theorem rate_of_sample {t : QuadTree R k} {g g' : γ} {x y : Nat} (ht : ¬ t.total ≤ 0)
    (h : t.sample g = (some (x, y), g')) :
    x < Nat.pow 2 k ∧ y < Nat.pow 2 k ∧ ¬ t.rate x y ≤ 0 := by
  induction t generalizing g g' x y with
  | leaf r =>
    cases h
    exact ⟨Nat.one_pos, Nat.one_pos, ht⟩
  | @node k sum nw ne sw se ihnw ihne ihsw ihse =>
    have hp := pow_succ_two k
    unfold sample at h
    simp only at h
    split at h
    next => simp at h
    next =>
      split at h
      next => simp at h
      next hc =>
        obtain ⟨w, hw, hpos⟩ := exists_of_choose hc
        cases hw
        obtain ⟨u, v, huv, rfl, rfl⟩ := sample_of_shifted h
        obtain ⟨hu, hv, hr⟩ := ihnw hpos huv
        refine ⟨by omega, by omega, ?_⟩
        simpa only [rate, Nat.add_zero, if_pos hu, if_pos hv] using hr
      next hc =>
        obtain ⟨w, hw, hpos⟩ := exists_of_choose hc
        cases hw
        obtain ⟨u, v, huv, rfl, rfl⟩ := sample_of_shifted h
        obtain ⟨hu, hv, hr⟩ := ihne hpos huv
        refine ⟨by omega, by omega, ?_⟩
        have hx : ¬ u + Nat.pow 2 k < Nat.pow 2 k := by omega
        simpa only [rate, Nat.add_zero, if_neg hx, if_pos hv, Nat.add_sub_cancel] using hr
      next hc =>
        obtain ⟨w, hw, hpos⟩ := exists_of_choose hc
        cases hw
        obtain ⟨u, v, huv, rfl, rfl⟩ := sample_of_shifted h
        obtain ⟨hu, hv, hr⟩ := ihsw hpos huv
        refine ⟨by omega, by omega, ?_⟩
        have hy : ¬ v + Nat.pow 2 k < Nat.pow 2 k := by omega
        simpa only [rate, Nat.add_zero, if_pos hu, if_neg hy, Nat.add_sub_cancel] using hr
      next i h0 h1 h2 hc =>
        obtain ⟨w, hw, hpos⟩ := exists_of_choose hc
        have hi : i = 3 := by
          have hlt : i < 4 := (List.getElem?_eq_some_iff.mp hw).1
          have h0 : i ≠ 0 := h0
          have h1 : i ≠ 1 := h1
          have h2 : i ≠ 2 := h2
          omega
        subst hi
        cases hw
        obtain ⟨u, v, huv, rfl, rfl⟩ := sample_of_shifted h
        obtain ⟨hu, hv, hr⟩ := ihse hpos huv
        refine ⟨by omega, by omega, ?_⟩
        have hx : ¬ u + Nat.pow 2 k < Nat.pow 2 k := by omega
        have hy : ¬ v + Nat.pow 2 k < Nat.pow 2 k := by omega
        simpa only [rate, if_neg hx, if_neg hy, Nat.add_sub_cancel] using hr

end QuadTree

namespace ActivityTree

variable {R γ : Type}

theorem place?_eq_some_iff {t : ActivityTree R} {p : Point} {x y : Nat} :
    t.place? p = some (x, y) ↔ p = ⟨x, y⟩ ∧ x < t.size ∧ y < t.size := by
  unfold place?
  rw [Point.eq_iff]
  simp only [Option.ite_none_right_eq_some, Option.some.injEq, Prod.mk.injEq]
  omega

theorem le_leastPower (n : Nat) : n ≤ leastPower n := by
  unfold leastPower
  split
  next h => exact h
  next h =>
    have hlt : n - 1 < Nat.pow 2 ((n - 1).log2 + 1) := Nat.lt_log2_self
    omega

/-- The square covers a rectangle. -/
structure Covers (t : ActivityTree R) (width height : Nat) : Prop where
  width : width ≤ t.size
  height : height ≤ t.size

variable [Scalar R]

theorem depth_update (t : ActivityTree R) (p : Point) (rate : R) :
    (t.update p rate).2.depth = t.depth := by
  unfold update
  split <;> rfl

theorem size_update (t : ActivityTree R) (p : Point) (rate : R) :
    (t.update p rate).2.size = t.size := by
  rw [size, size, depth_update]

theorem rate_blank (depth : Nat) (p : Point) : (blank depth : ActivityTree R).rate p = 0 := by
  unfold rate
  cases (blank depth : ActivityTree R).place? p with
  | none => rfl
  | some place => exact QuadTree.rate_blank ..

/-- A rate that is set at a point of the square is found there, and all others stay. -/
theorem rate_update (t : ActivityTree R) (p q : Point) (rate : R) :
    (t.update p rate).2.rate q =
      if q = p ∧ (t.place? p).isSome then Scalar.atLeast 0 rate else t.rate q := by
  cases hp : t.place? p with
  | none => simp [update, hp]
  | some place =>
    obtain ⟨x, y⟩ := place
    obtain ⟨rfl, hx, hy⟩ := place?_eq_some_iff.mp hp
    have hplace : (t.update ⟨x, y⟩ rate).2.place? q = t.place? q := by
      unfold place?
      rw [size_update]
    unfold ActivityTree.rate
    rw [hplace]
    cases hq : t.place? q with
    | none =>
      have hne : q ≠ ⟨x, y⟩ := by
        rintro rfl
        rw [hp] at hq
        exact nomatch hq
      rw [if_neg fun h => hne h.1]
      rfl
    | some place =>
      obtain ⟨u, v⟩ := place
      obtain ⟨rfl, hu, hv⟩ := place?_eq_some_iff.mp hq
      have hput : (t.update ⟨x, y⟩ rate).2.root.rate u v = if u = x ∧ v = y then
          Scalar.atLeast 0 rate else t.root.rate u v := by
        unfold update
        rw [hp]
        exact QuadTree.rate_put hx hy hu hv
      have hiff : (u = x ∧ v = y) ↔ (⟨u, v⟩ : Point) = ⟨x, y⟩ ∧ (some (x, y)).isSome = true := by
        rw [Point.eq_iff]
        simp only [Option.isSome_some, and_true]
        omega
      simp only [← hiff]
      exact hput

theorem covering_eq (width height : Nat) :
    (covering width height : Except Fault (ActivityTree R)) =
      .ok (blank (leastPower (max width height)).log2) := by
  have hpow : Nat.pow 2 (leastPower (max width height)).log2 = leastPower (max width height) := by
    unfold leastPower
    split
    · rfl
    · exact congrArg (Nat.pow 2) Nat.log2_two_pow
  exact if_pos hpow

theorem covers_covering {width height : Nat} {t : ActivityTree R}
    (h : covering width height = .ok t) : t.Covers width height ∧ ∀ p, t.rate p = 0 := by
  have hle := le_leastPower (max width height)
  unfold covering ofSize at h
  split at h
  next hs =>
    cases h
    have hsize : (blank (leastPower (max width height)).log2 : ActivityTree R).size =
        leastPower (max width height) := hs
    refine ⟨⟨?_, ?_⟩, rate_blank _⟩
    · omega
    · omega
  next => exact nomatch h

/-- A change to the rates of a square. -/
inductive Change (R : Type)
  | update (p : Point) (rate : R)
  | clear

namespace Change

def apply (t : ActivityTree R) : Change R → ActivityTree R
  | .update p rate => (t.update p rate).2
  | .clear => t.clear

/-- What a change writes at a point. -/
def written? (p : Point) : Change R → Option R
  | .update q rate => if p = q then some (Scalar.atLeast 0 rate) else none
  | .clear => some 0

end Change

def run (t : ActivityTree R) (changes : List (Change R)) : ActivityTree R :=
  changes.foldl Change.apply t

/-- What the last of the changes that write at a point writes there, zero if none does. -/
def lastWritten (p : Point) (changes : List (Change R)) : R :=
  (changes.reverse.findSome? (·.written? p)).getD 0

theorem lastWritten_append_singleton (p : Point) (changes : List (Change R)) (c : Change R) :
    lastWritten p (changes ++ [c]) = (c.written? p).getD (lastWritten p changes) := by
  unfold lastWritten
  rw [List.reverse_append, List.reverse_singleton, List.singleton_append, List.findSome?_cons]
  cases c.written? p <;> rfl

theorem run_append_singleton (t : ActivityTree R) (changes : List (Change R)) (c : Change R) :
    t.run (changes ++ [c]) = c.apply (t.run changes) := by
  simp [run]

theorem depth_run (t : ActivityTree R) (changes : List (Change R)) :
    (t.run changes).depth = t.depth := by
  induction changes generalizing t with
  | nil => rfl
  | cons c changes ih =>
    refine (ih (c.apply t)).trans ?_
    cases c with
    | update p rate => exact depth_update ..
    | clear => rfl

/-- Changes make one square of rates out of another. -/
def LeadsTo (t u : ActivityTree R) : Prop := ∃ changes, u = t.run changes

theorem LeadsTo.refl (t : ActivityTree R) : t.LeadsTo t := ⟨[], rfl⟩

theorem LeadsTo.trans {t u v : ActivityTree R} (h : t.LeadsTo u) (k : u.LeadsTo v) :
    t.LeadsTo v := by
  obtain ⟨xs, rfl⟩ := h
  obtain ⟨ys, rfl⟩ := k
  exact ⟨xs ++ ys, by simp [run]⟩

theorem leadsTo_update (t : ActivityTree R) (p : Point) (rate : R) :
    t.LeadsTo (t.update p rate).2 := ⟨[.update p rate], rfl⟩

variable [Generator R γ]

/-- A point that is drawn has a rate that is not below or at zero. -/
theorem rate_of_sample {t : ActivityTree R} {g g' : γ} {p : Point}
    (h : t.sample g = (some p, g')) : ¬ t.rate p ≤ 0 := by
  unfold sample at h
  split at h
  next => simp at h
  next ht =>
    generalize hs : t.root.sample g = drawn at h
    obtain ⟨place, g''⟩ := drawn
    cases place with
    | none => simp at h
    | some place =>
      obtain ⟨x, y⟩ := place
      obtain ⟨hx, hy, hr⟩ := QuadTree.rate_of_sample ht hs
      cases h
      have hp : t.place? ⟨x, y⟩ = some (x, y) := place?_eq_some_iff.mpr ⟨rfl, hx, hy⟩
      rw [rate, hp]
      exact hr

end ActivityTree

end ParticleAutomaton
