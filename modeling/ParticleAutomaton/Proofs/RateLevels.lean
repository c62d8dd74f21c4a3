import ParticleAutomaton.Proofs.QuadrantSums

namespace ParticleAutomaton

/-- Rates over a square as they are laid out: an array for each level, with the sums of its
quadrants row by row. -/
structure RateLevels (R : Type) where
  depth : Nat
  size : Nat
  levels : Array (Array R)

namespace RateLevels

variable {R γ : Type} [Scalar R]

def ofSize (size : Nat) : Except Fault (RateLevels R) :=
  if Nat.pow 2 size.log2 = size then
    .ok ⟨size.log2, size,
      (Array.range (size.log2 + 1)).map fun level => Array.replicate (1 <<< (2 * level)) 0⟩
  else .error (.treeSize size)

def covering (width height : Nat) : Except Fault (RateLevels R) :=
  ofSize (ActivityTree.leastPower (max width height))

/-- The sum of a quadrant of a level, by its column and its row. -/
def read (t : RateLevels R) (level side x y : Nat) : Except Fault R := do
  let sums ← Indexed.read t.levels level
  Indexed.read sums (x + y * side)

def write (t : RateLevels R) (level side x y : Nat) (sum : R) : Except Fault (RateLevels R) := do
  let sums ← Indexed.read t.levels level
  let sums ← Indexed.write sums (x + y * side) sum
  let levels ← Indexed.write t.levels level sums
  .ok { t with levels }

/-- The column and the row of a point of the square. -/
def place? (t : RateLevels R) (p : Point) : Option (Nat × Nat) :=
  if 0 ≤ p.x ∧ 0 ≤ p.y ∧ p.x < t.size ∧ p.y < t.size then some (p.x.toNat, p.y.toNat) else none

/-- The rate at a point, zero outside. -/
def rate (t : RateLevels R) (p : Point) : Except Fault R :=
  match t.place? p with
  | some (x, y) => t.read t.depth t.size x y
  | none => .ok 0

/-- Raises the sums above a place, from a level on upward. -/
def raise (delta : R) (x y : Nat) : Nat → RateLevels R → Except Fault (RateLevels R)
  | 0, t => .ok t
  | level + 1, t => do
    let shift := t.depth - level
    let sum ← t.read level (1 <<< level) (x >>> shift) (y >>> shift)
    let t ← t.write level (1 <<< level) (x >>> shift) (y >>> shift)
      (Scalar.atLeast 0 (sum + delta))
    raise delta x y level t

/-- Sets the rate at a point, to zero if it is negative; false outside. All sums above it gain as
much, and stay if nothing is gained. -/
def update (t : RateLevels R) (p : Point) (rate : R) : Except Fault (Bool × RateLevels R) :=
  match t.place? p with
  | none => .ok (false, t)
  | some (x, y) => do
    let rate := Scalar.atLeast 0 rate
    let old ← t.read t.depth t.size x y
    let delta := rate - old
    let t ← t.write t.depth t.size x y rate
    if delta ≤ 0 ∧ 0 ≤ delta then .ok (true, t)
    else
      let t ← raise delta x y t.depth t
      .ok (true, t)

/-- The sum of all rates. -/
def topRate (t : RateLevels R) : Except Fault R := t.read 0 1 0 0

/-- Draws a place below a quadrant, through the levels that are left. -/
def descend [Generator R γ] (t : RateLevels R) :
    Nat → Nat → Nat → γ → Except Fault (Option (Nat × Nat) × γ)
  | 0, x, y, g => .ok (some (x, y), g)
  | left + 1, x, y, g => do
    let level := t.depth - left
    let children :=
      [(2 * x, 2 * y), (2 * x + 1, 2 * y), (2 * x, 2 * y + 1), (2 * x + 1, 2 * y + 1)]
    let weights ← children.mapM fun (x, y) => t.read level (1 <<< level) x y
    let total := Scalar.sum weights
    if total ≤ 0 then .ok (none, g)
    else
      let (u, g) := Generator.next (R := R) g
      match QuadTree.choose (u * total) 0 none weights with
      | none => .ok (none, g)
      | some i =>
        let (x, y) ← Indexed.read children.toArray i
        descend t left x y g

/-- Draws a point by its rate; none if there is no activity. -/
def sample [Generator R γ] (t : RateLevels R) (g : γ) : Except Fault (Option Point × γ) := do
  let top ← t.topRate
  if top ≤ 0 then .ok (none, g)
  else
    let (place, g) ← t.descend t.depth 0 0 g
    .ok (place.map fun (x, y) => ⟨x, y⟩, g)

/-- All rates become zero. -/
def clear (t : RateLevels R) : RateLevels R :=
  { t with levels := t.levels.map fun sums => Array.replicate sums.size 0 }

end RateLevels

namespace QuadTree

variable {R : Type} {k : Nat}

theorem half_div {level : Nat} (h : level ≤ k) (far : Bool) (x : Nat) :
    (half k far + x) / 2 ^ (k - level) = half level far + x / 2 ^ (k - level) := by
  have hpos : 0 < 2 ^ (k - level) := Nat.two_pow_pos _
  have hhalf : half k far = 2 ^ (k - level) * half level far := by
    cases far with
    | false => rfl
    | true =>
      show 2 ^ k = 2 ^ (k - level) * 2 ^ level
      rw [← pow_add, Nat.sub_add_cancel h]
  rw [hhalf, Nat.mul_add_div hpos]

/-- The quadrant above a place is one of its level. -/
theorem div_pow_lt {level x : Nat} (h : level ≤ k) (hx : x < 2 ^ k) :
    x / 2 ^ (k - level) < 2 ^ level := by
  rwa [Nat.div_lt_iff_lt_mul (Nat.two_pow_pos _), ← pow_add, Nat.add_sub_cancel' h]

/-- The places of a quadrant among those of its level. -/
theorem double_add (k x : Nat) (far : Bool) (u : Nat) :
    (2 * x + far.toNat) * 2 ^ k + u = x * 2 ^ (k + 1) + (half k far + u) := by
  rw [pow_succ]
  cases far <;> simp [half] <;> ring

theorem quadrant_put {r : R} {raise : R → R} {t : QuadTree R (k + 1)} {x y : Nat}
    (hx : x < 2 ^ k) (hy : y < 2 ^ k) (right lower right' lower' : Bool) :
    (put r raise t (half k right + x) (half k lower + y)).quadrant right' lower' =
      if right = right' ∧ lower = lower' then put r raise (t.quadrant right' lower') x y
      else t.quadrant right' lower' := by
  cases t
  cases right <;> cases lower <;> cases right' <;> cases lower' <;>
    simp [put, quadrant, half, hx, hy]

/-- At the last level the sums are the rates. -/
theorem sumAt_last (t : QuadTree R k) (x y : Nat) : t.sumAt k x y = t.rate x y := by
  induction t generalizing x y with
  | leaf rate => rfl
  | node sum nw ne sw se ihnw ihne ihsw ihse =>
    unfold sumAt rate
    simp only [ihnw, ihne, ihsw, ihse]

theorem total_put {r : R} {raise : R → R} (t : QuadTree R k) (x y : Nat) :
    (put r raise t x y).total = if 0 = k then r else raise t.total := by
  cases t with
  | leaf rate => rfl
  | node sum nw ne sw se =>
    rw [if_neg (Nat.succ_ne_zero _).symm, put]
    split
    · split <;> rfl
    · split <;> rfl

/-- To set a rate sets it at its place, raises the sums of the quadrants that it lies in, and leaves
all other sums. -/
theorem sumAt_put {r : R} {raise : R → R} {t : QuadTree R k} {level x y u v : Nat}
    (hlevel : level ≤ k) (hx : x < 2 ^ k) (hy : y < 2 ^ k) (hu : u < 2 ^ level)
    (hv : v < 2 ^ level) :
    (put r raise t x y).sumAt level u v =
      if u = x / 2 ^ (k - level) ∧ v = y / 2 ^ (k - level) then
        if level = k then r else raise (t.sumAt level u v)
      else t.sumAt level u v := by
  induction level generalizing k x y u v with
  | zero =>
    have hu : u = x / 2 ^ (k - 0) := by
      rw [Nat.sub_zero, Nat.div_eq_of_lt hx]
      omega
    have hv : v = y / 2 ^ (k - 0) := by
      rw [Nat.sub_zero, Nat.div_eq_of_lt hy]
      omega
    rw [if_pos ⟨hu, hv⟩, sumAt, sumAt, total_put]
  | succ level ih =>
    obtain ⟨k, rfl⟩ : ∃ n, k = n + 1 := ⟨k - 1, by omega⟩
    obtain ⟨right, x, hx', rfl⟩ := exists_half hx
    obtain ⟨lower, y, hy', rfl⟩ := exists_half hy
    obtain ⟨right', u, hu', rfl⟩ := exists_half hu
    obtain ⟨lower', v, hv', rfl⟩ := exists_half hv
    have hle : level ≤ k := by omega
    have hcolumn := div_pow_lt hle hx'
    have hrow := div_pow_lt hle hy'
    rw [sumAt_quadrant hu' hv', sumAt_quadrant hu' hv', quadrant_put hx' hy', Nat.add_sub_add_right,
      half_div hle, half_div hle]
    by_cases hsame : right = right' ∧ lower = lower'
    · obtain ⟨rfl, rfl⟩ := hsame
      rw [if_pos ⟨rfl, rfl⟩, ih hle hx' hy' hu' hv']
      simp only [Nat.add_left_cancel_iff, Nat.add_right_cancel_iff]
    · rw [if_neg hsame, if_neg]
      rintro ⟨hr, hl⟩
      exact hsame ⟨(half_add_inj hu' hcolumn hr).1.symm, (half_add_inj hv' hrow hl).1.symm⟩

variable {γ : Type} [Scalar R] [Generator R γ] {t : QuadTree R (k + 1)} {g : γ}

theorem sample_still (h : Scalar.sum t.weights ≤ 0) : t.sample g = (none, g) := by
  cases t with
  | node sum nw ne sw se =>
    rw [sample]
    exact if_pos h

theorem sample_unchosen (h : ¬ Scalar.sum t.weights ≤ 0)
    (hc : choose ((Generator.next (R := R) g).1 * Scalar.sum t.weights) 0 none t.weights = none) :
    t.sample g = (none, (Generator.next (R := R) g).2) := by
  cases t with
  | node sum nw ne sw se =>
    have h : ¬ Scalar.sum [nw.total, ne.total, sw.total, se.total] ≤ 0 := h
    have hc : choose ((Generator.next (R := R) g).1 *
        Scalar.sum [nw.total, ne.total, sw.total, se.total]) 0 none
        [nw.total, ne.total, sw.total, se.total] = none := hc
    rw [sample]
    simp only
    rw [if_neg h, hc]

end QuadTree

/-- A place of a square in its rows. -/
theorem place_lt {side x y : Nat} (hx : x < side) (hy : y < side) : x + y * side < side * side := by
  have hrow : (y + 1) * side ≤ side * side := Nat.mul_le_mul_right side hy
  rw [Nat.succ_mul] at hrow
  omega

theorem place_inj {side x y u v : Nat} (hx : x < side) (hu : u < side) :
    x + y * side = u + v * side ↔ x = u ∧ y = v := by
  have hpos : 0 < side := by omega
  constructor
  · intro h
    have hmod := congrArg (· % side) h
    have hdiv := congrArg (· / side) h
    simp only [Nat.add_mul_mod_self_right, Nat.mod_eq_of_lt hx, Nat.mod_eq_of_lt hu] at hmod
    simp only [Nat.add_mul_div_right _ _ hpos, Nat.div_eq_of_lt hx, Nat.div_eq_of_lt hu,
      Nat.zero_add] at hdiv
    exact ⟨hmod, hdiv⟩
  · rintro ⟨rfl, rfl⟩
    rfl

namespace RateLevels

section

variable {R : Type}

/-- The arrays hold numbers for all quadrants of all levels down to some depth. -/
structure Holds (t : RateLevels R) (k : Nat) (sumAt : Nat → Nat → Nat → R) : Prop where
  depth : t.depth = k
  size : t.size = 2 ^ k
  count : t.levels.size = k + 1
  sums : ∀ level ≤ k, ∃ sums, t.levels[level]? = some sums ∧
    sums.size = 2 ^ level * 2 ^ level ∧
    ∀ x < 2 ^ level, ∀ y < 2 ^ level, sums[x + y * 2 ^ level]? = some (sumAt level x y)

variable {t : RateLevels R} {k level x y : Nat} {f : Nat → Nat → Nat → R}

theorem Holds.read (h : t.Holds k f) (hlevel : level ≤ k) (hx : x < 2 ^ level)
    (hy : y < 2 ^ level) : t.read level (2 ^ level) x y = .ok (f level x y) := by
  obtain ⟨sums, hsums, -, hsum⟩ := h.sums level hlevel
  unfold RateLevels.read
  rw [Indexed.read_ok hsums, ok_bind, Indexed.read_ok (hsum x hx y hy)]

/-- A number that is written is the only one that changes. -/
theorem Holds.write (h : t.Holds k f) (hlevel : level ≤ k) (hx : x < 2 ^ level)
    (hy : y < 2 ^ level) (sum : R) :
    ∃ t', t.write level (2 ^ level) x y sum = .ok t' ∧ t'.Holds k fun l u v =>
      if l = level ∧ u = x ∧ v = y then sum else f l u v := by
  obtain ⟨sums, hsums, hsize, hsum⟩ := h.sums level hlevel
  have hplace : x + y * 2 ^ level < sums.size := hsize ▸ place_lt hx hy
  have hcount : level < t.levels.size := by
    rw [h.count]
    omega
  unfold RateLevels.write
  rw [Indexed.read_ok hsums, ok_bind, Indexed.write_ok hplace, ok_bind, Indexed.write_ok hcount,
    ok_bind]
  refine ⟨_, rfl, h.depth, h.size, by rw [Array.size_setIfInBounds, h.count], fun l hl => ?_⟩
  by_cases hle : l = level
  · subst hle
    refine ⟨sums.setIfInBounds (x + y * 2 ^ l) sum, ?_, ?_, fun u hu v hv => ?_⟩
    · rw [Array.getElem?_setIfInBounds_self_of_lt hcount]
    · rw [Array.size_setIfInBounds, hsize]
    · rw [Array.getElem?_setIfInBounds, hsum u hu v hv, if_pos hplace]
      simp only [place_inj hx hu]
      grind
  · obtain ⟨other, hother, hsize, hsum⟩ := h.sums l hl
    refine ⟨other, ?_, hsize, fun u hu v hv => ?_⟩
    · rw [Array.getElem?_setIfInBounds_ne (Ne.symm hle), hother]
    · rw [hsum u hu v hv, if_neg fun he => hle he.1]

theorem Holds.congr {g : Nat → Nat → Nat → R} (h : t.Holds k f)
    (hfg : ∀ l ≤ k, ∀ u < 2 ^ l, ∀ v < 2 ^ l, f l u v = g l u v) : t.Holds k g := by
  refine ⟨h.depth, h.size, h.count, fun l hl => ?_⟩
  obtain ⟨sums, hsums, hsize, hsum⟩ := h.sums l hl
  exact ⟨sums, hsums, hsize, fun u hu v hv => hfg l hl u hu v hv ▸ hsum u hu v hv⟩

/-- A quadrant of a level lies where the levels have the sums of its own quadrants. -/
def Sits (t : RateLevels R) (level x y : Nat) {n : Nat} (q : QuadTree R n) : Prop :=
  ∀ below ≤ n, ∀ u < 2 ^ below, ∀ v < 2 ^ below,
    t.read (level + below) (2 ^ (level + below)) (x * 2 ^ below + u) (y * 2 ^ below + v) =
      .ok (q.sumAt below u v)

theorem Sits.total {n : Nat} {q : QuadTree R n} (h : t.Sits level x y q) :
    t.read level (2 ^ level) x y = .ok q.total := by
  have hread := h 0 (Nat.zero_le n) 0 Nat.one_pos 0 Nat.one_pos
  rw [QuadTree.sumAt] at hread
  simpa using hread

theorem Sits.quadrant {n : Nat} {q : QuadTree R (n + 1)} (h : t.Sits level x y q)
    (right lower : Bool) :
    t.Sits (level + 1) (2 * x + right.toNat) (2 * y + lower.toNat) (q.quadrant right lower) := by
  intro below hbelow u hu v hv
  have hside : 2 ^ (below + 1) = 2 ^ below + 2 ^ below := QuadTree.pow_succ_two below
  have hlt (far : Bool) {a : Nat} (ha : a < 2 ^ below) :
      QuadTree.half below far + a < 2 ^ (below + 1) := by
    cases far <;> simp [QuadTree.half] <;> omega
  have hlevel : level + 1 + below = level + (below + 1) := by omega
  have hread := h (below + 1) (by omega) _ (hlt right hu) _ (hlt lower hv)
  rw [hlevel, QuadTree.double_add, QuadTree.double_add, hread, QuadTree.sumAt_quadrant hu hv]

theorem Sits.weights {n : Nat} {q : QuadTree R (n + 1)}
    (h : t.Sits level x y q) :
    ([(2 * x, 2 * y), (2 * x + 1, 2 * y), (2 * x, 2 * y + 1), (2 * x + 1, 2 * y + 1)].mapM
        fun (x, y) => t.read (level + 1) (2 ^ (level + 1)) x y) = .ok q.weights := by
  have hnw := (h.quadrant false false).total
  have hne := (h.quadrant true false).total
  have hsw := (h.quadrant false true).total
  have hse := (h.quadrant true true).total
  simp only [Bool.toNat_false, Bool.toNat_true, Nat.add_zero] at hnw hne hsw hse
  simp only [List.mapM_cons, List.mapM_nil, hnw, hne, hsw, hse]
  rfl

/-- The arrays show a square of rates: they hold its sums. -/
def Shows (t : RateLevels R) (s : ActivityTree R) : Prop := t.Holds s.depth s.root.sumAt

variable {s : ActivityTree R}

theorem Shows.sits (h : t.Shows s) : t.Sits 0 0 0 s.root := by
  intro below hbelow u hu v hv
  rw [Nat.zero_mul, Nat.zero_add, Nat.zero_add, Nat.zero_add]
  exact h.read hbelow hu hv

theorem Shows.place? (h : t.Shows s) (p : Point) : t.place? p = s.place? p := by
  have hsize : t.size = s.size := h.size
  unfold RateLevels.place? ActivityTree.place?
  rw [hsize]

theorem Shows.read_last (h : t.Shows s) (hx : x < s.size) (hy : y < s.size) :
    t.read t.depth t.size x y = .ok (s.root.rate x y) := by
  rw [h.depth, h.size, h.read (Nat.le_refl _) hx hy, QuadTree.sumAt_last]

theorem Shows.topRate (h : t.Shows s) : t.topRate = .ok s.topRate := h.sits.total

end

variable {R γ : Type} [Scalar R]

theorem sumAt_blank (k level x y : Nat) :
    (QuadTree.blank k : QuadTree R k).sumAt level x y = 0 := by
  induction level generalizing k x y with
  | zero => cases k <;> rfl
  | succ level ih =>
    cases k with
    | zero => rfl
    | succ k =>
      unfold QuadTree.blank QuadTree.sumAt
      simp only [ih, ite_self]

theorem one_shiftLeft_double (level : Nat) : 1 <<< (2 * level) = 2 ^ level * 2 ^ level := by
  rw [Nat.one_shiftLeft, Nat.two_mul, Nat.pow_add]

/-- Arrays of zeros show a square without activity. -/
theorem shows_blank {t : RateLevels R} {k : Nat} (hdepth : t.depth = k) (hsize : t.size = 2 ^ k)
    (hcount : t.levels.size = k + 1)
    (hsums : ∀ level ≤ k, t.levels[level]? = some (Array.replicate (2 ^ level * 2 ^ level) 0)) :
    t.Shows (.blank k) := by
  refine ⟨hdepth, hsize, hcount, fun level hlevel => ⟨_, hsums level hlevel, by simp, ?_⟩⟩
  intro x hx y hy
  rw [Array.getElem?_replicate, if_pos (place_lt hx hy)]
  exact congrArg some (sumAt_blank ..).symm

theorem shows_ofSize (size : Nat) :
    Agree Shows (ofSize size : Except Fault (RateLevels R)) (ActivityTree.ofSize size) := by
  unfold ofSize ActivityTree.ofSize
  split
  next hsize =>
    refine .ok (shows_blank rfl hsize.symm (by simp) fun level hlevel => ?_)
    have hlt : level < size.log2 + 1 := by omega
    rw [Array.getElem?_map, Array.getElem?_range, if_pos hlt, ← one_shiftLeft_double]
    rfl
  next => exact .error nofun

theorem shows_covering (width height : Nat) :
    Agree Shows (covering width height : Except Fault (RateLevels R))
      (ActivityTree.covering width height) := shows_ofSize _

variable {t : RateLevels R} {s : ActivityTree R}

theorem Shows.clear (h : t.Shows s) : t.clear.Shows s.clear := by
  refine shows_blank h.depth h.size ?_ fun level hlevel => ?_
  · rw [RateLevels.clear, Array.size_map]
    exact h.count
  · obtain ⟨sums, hsums, hsize, -⟩ := h.sums level hlevel
    rw [RateLevels.clear, Array.getElem?_map, hsums, ← hsize]
    rfl

theorem Shows.rate (h : t.Shows s) (p : Point) : t.rate p = .ok (s.rate p) := by
  unfold RateLevels.rate ActivityTree.rate
  rw [h.place?]
  cases hp : s.place? p with
  | none => rfl
  | some place =>
    obtain ⟨-, hx, hy⟩ := ActivityTree.place?_eq_some_iff.mp hp
    exact h.read_last hx hy

/-- The sums above a place are raised level by level, and no other number changes. -/
theorem Holds.raise {k : Nat} {f : Nat → Nat → Nat → R} (h : t.Holds k f) {x y : Nat}
    (hx : x < 2 ^ k) (hy : y < 2 ^ k) (delta : R) {level : Nat} (hlevel : level ≤ k) :
    ∃ t', RateLevels.raise delta x y level t = .ok t' ∧ t'.Holds k fun l u v =>
      if l < level ∧ u = x / 2 ^ (k - l) ∧ v = y / 2 ^ (k - l) then
        Scalar.atLeast 0 (f l u v + delta)
      else f l u v := by
  induction level generalizing t f with
  | zero =>
    exact ⟨t, rfl, h.congr fun l _ u _ v _ => (if_neg fun hl => Nat.not_lt_zero l hl.1).symm⟩
  | succ level ih =>
    have hle : level ≤ k := by omega
    have hcolumn := QuadTree.div_pow_lt hle hx
    have hrow := QuadTree.div_pow_lt hle hy
    obtain ⟨t₁, hwrite, h₁⟩ := h.write hle hcolumn hrow
      (Scalar.atLeast 0 (f level (x / 2 ^ (k - level)) (y / 2 ^ (k - level)) + delta))
    obtain ⟨t₂, hraise, h₂⟩ := ih h₁ hle
    refine ⟨t₂, ?_, h₂.congr fun l _ u _ v _ => ?_⟩
    · unfold RateLevels.raise
      simp only [h.depth, Nat.one_shiftLeft, Nat.shiftRight_eq_div_pow]
      rw [h.read hle hcolumn hrow, ok_bind, hwrite, ok_bind, hraise]
    · by_cases hl : l = level
      · subst hl
        grind
      · grind

/-- A rate is set as in the square, with no place missed on the way up. -/
theorem Shows.update (h : t.Shows s) (p : Point) (rate : R) :
    ∃ t', t.update p rate = .ok ((s.update p rate).1, t') ∧ t'.Shows (s.update p rate).2 := by
  unfold RateLevels.update ActivityTree.update
  rw [h.place?]
  cases hp : s.place? p with
  | none => exact ⟨t, rfl, h⟩
  | some place =>
    obtain ⟨x, y⟩ := place
    obtain ⟨-, hx, hy⟩ := ActivityTree.place?_eq_some_iff.mp hp
    obtain ⟨t₁, hwrite, h₁⟩ := h.write (Nat.le_refl _) hx hy (Scalar.atLeast 0 rate)
    have hlast : t.write t.depth t.size x y (Scalar.atLeast 0 rate) = .ok t₁ := by
      rw [h.depth, h.size]
      exact hwrite
    simp only
    rw [h.read_last hx hy, ok_bind, hlast, ok_bind]
    split
    next =>
      refine ⟨t₁, rfl, h₁.congr fun l hl u hu v hv => ?_⟩
      rw [QuadTree.sumAt_put hl hx hy hu hv]
      by_cases hle : l = s.depth
      · subst hle
        simp
      · simp [hle]
    next =>
      obtain ⟨t₂, hraise, h₂⟩ := h₁.raise hx hy (Scalar.atLeast 0 rate - s.root.rate x y)
        (Nat.le_refl _)
      rw [h₁.depth, hraise, ok_bind]
      refine ⟨t₂, rfl, h₂.congr fun l hl u hu v hv => ?_⟩
      rw [QuadTree.sumAt_put hl hx hy hu hv]
      by_cases hle : l = s.depth
      · subst hle
        simp
      · have hlt : l < s.depth := by omega
        simp [hle, hlt]

/-- A draw goes down the levels as it goes down the quadrants. -/
theorem descend_ok [Generator R γ] {n level x y : Nat} {q : QuadTree R n}
    (h : t.Sits level x y q) (hdepth : t.depth = level + n) (g : γ) :
    t.descend n x y g =
      .ok ((q.sample g).1.map fun z => (x * 2 ^ n + z.1, y * 2 ^ n + z.2), (q.sample g).2) := by
  induction n generalizing level x y g with
  | zero =>
    cases q with
    | leaf rate => simp [descend, QuadTree.sample]
  | succ n ih =>
    have hlevel : t.depth - n = level + 1 := by omega
    unfold descend
    simp only [hlevel, Nat.one_shiftLeft]
    rw [h.weights, ok_bind]
    by_cases hsum : Scalar.sum q.weights ≤ 0
    · rw [if_pos hsum, QuadTree.sample_still hsum]
      rfl
    · rw [if_neg hsum]
      cases hc : QuadTree.choose ((Generator.next (R := R) g).1 * Scalar.sum q.weights) 0 none
          q.weights with
      | none =>
        rw [QuadTree.sample_unchosen hsum hc]
        rfl
      | some i =>
        obtain ⟨w, hw, -⟩ := QuadTree.exists_of_choose hc
        obtain ⟨right, lower, rfl⟩ := QuadTree.exists_number (List.getElem?_eq_some_iff.mp hw).1
        have hchild : Indexed.read [(2 * x, 2 * y), (2 * x + 1, 2 * y), (2 * x, 2 * y + 1),
            (2 * x + 1, 2 * y + 1)].toArray (QuadTree.number right lower) =
            .ok (2 * x + right.toNat, 2 * y + lower.toNat) := by
          cases right <;> cases lower <;> rfl
        have hbelow := ih (h.quadrant right lower) (by omega) (Generator.next (R := R) g).2
        simp only
        rw [hchild, ok_bind, hbelow, QuadTree.sample_chosen hsum hc, Option.map_map]
        congr 2
        congr 1
        funext z
        simp only [Function.comp, QuadTree.double_add, Nat.add_comm z.1, Nat.add_comm z.2]

theorem Shows.sample [Generator R γ] (h : t.Shows s) (g : γ) : t.sample g = .ok (s.sample g) := by
  unfold RateLevels.sample ActivityTree.sample
  rw [h.topRate, ok_bind]
  split
  next => rfl
  next =>
    rw [h.depth, descend_ok h.sits (by rw [h.depth, Nat.zero_add]) g, ok_bind]
    simp

/-- What is done to rates is done to the arrays. -/
def apply (t : RateLevels R) : ActivityTree.Change R → Except Fault (RateLevels R)
  | .update p rate => (t.update p rate).map Prod.snd
  | .clear => .ok t.clear

def run (t : RateLevels R) (changes : List (ActivityTree.Change R)) :
    Except Fault (RateLevels R) := changes.foldlM apply t

theorem Shows.run (h : t.Shows s) (changes : List (ActivityTree.Change R)) :
    ∃ t', t.run changes = .ok t' ∧ t'.Shows (s.run changes) := by
  induction changes generalizing t s with
  | nil => exact ⟨t, rfl, h⟩
  | cons c changes ih =>
    have hstep : ∃ t', t.apply c = .ok t' ∧ t'.Shows (c.apply s) := by
      cases c with
      | update p rate =>
        obtain ⟨t', ht', h'⟩ := h.update p rate
        refine ⟨t', ?_, h'⟩
        rw [RateLevels.apply, ht']
        rfl
      | clear => exact ⟨_, rfl, h.clear⟩
    obtain ⟨t', ht', h'⟩ := hstep
    obtain ⟨u, hu, hshows⟩ := ih h'
    refine ⟨u, ?_, hshows⟩
    rw [RateLevels.run, foldlM_cons, ht']
    exact hu

/-- The arrays have what is looked up in a square of rates. -/
structure Answers (t : RateLevels R) (s : ActivityTree R) : Prop where
  rate : ∀ p, t.rate p = .ok (s.rate p)
  topRate : t.topRate = .ok s.topRate
  sample : ∀ {γ : Type} [Generator R γ] (g : γ), t.sample g = .ok (s.sample g)
  update : ∀ p rate, ∃ t', t.update p rate = .ok ((s.update p rate).1, t')

theorem Shows.answers (h : t.Shows s) : t.Answers s := by
  refine ⟨h.rate, h.topRate, h.sample, fun p rate => ?_⟩
  obtain ⟨t', ht', -⟩ := h.update p rate
  exact ⟨t', ht'⟩

/-- Arrays that are made to cover a rectangle answer after any changes. -/
theorem answers_run {width height : Nat} {start : ActivityTree R}
    (h : ActivityTree.covering width height = .ok start) (changes : List (ActivityTree.Change R)) :
    ∃ t, (covering width height >>= fun t => run t changes) = .ok t ∧
      t.Answers (start.run changes) := by
  have hagree := shows_covering (R := R) width height
  rw [h] at hagree
  obtain ⟨t, ht, hshows⟩ := hagree.eq_ok
  obtain ⟨u, hu, hshows⟩ := hshows.run changes
  rw [ht]
  exact ⟨u, hu, hshows.answers⟩

end RateLevels

end ParticleAutomaton
